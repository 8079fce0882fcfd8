import Adbd.Effects.Step

/-!
# What the event loop refers to

An `fdevent` is linked as long as it is pending, the kernel holds a pointer to it, or `fd_table`
does.  Only the two calls that install an `fdevent` and subscribe it to events link it; so the
`fdevent` of a host that waits for a confirmation is linked only once that host has sent a key.
-/

namespace Adbd

open Function Relation

namespace Loop

variable {κ : Type} [DecidableEq κ]

/-- The list, the kernel or the table has a pointer to the `fdevent`. -/
def Linked (k : κ) (L : Loop κ) : Prop :=
  k ∈ L.listPending ∨ (∃ n m, L.interest n = some (m, k)) ∨ ∃ n, L.fdTable n = .fde k

variable {j k : κ} {L L' : Loop κ} {n : ℕ} {ev : BitVec 16} {mask : EpollMask}

/-- `fdevent_set` of another `fdevent` links nothing. -/
lemma SetSpec.linked (h : SetSpec k ev L L') (hjk : j ≠ k) (hl : L'.Linked j) : L.Linked j := by
  rcases hl with hl | ⟨n, m, hl⟩ | ⟨n, hl⟩
  · rcases h.pending with ⟨hlist, -⟩ | ⟨hlist, -⟩
    · exact .inl (hlist ▸ hl)
    · rw [hlist] at hl
      exact .inl (List.mem_of_mem_erase hl)
  · refine .inr (.inl ⟨n, m, ?_⟩)
    by_cases hn : n = (L.mem k).fd
    · rw [hn] at hl ⊢
      rcases h.interest_self m j hl with ⟨hold, -⟩ | ⟨hold, -⟩ | ⟨hkj, -⟩
      · exact hold
      · exact hold
      · exact absurd hkj hjk
    · rw [← h.interest_other n hn]
      exact hl
  · exact .inr (.inr ⟨n, h.fdTable ▸ hl⟩)

lemma RemoveSpec.linked (h : RemoveSpec k L L') (hl : L'.Linked j) : L.Linked j := by
  rcases hl with hl | ⟨n, m, hl⟩ | ⟨n, hl⟩
  · left
    rw [h.pending] at hl
    split at hl
    · exact List.mem_of_mem_erase hl
    · exact hl
  · exact .inr (.inl ⟨n, m, h.interest_sub n _ hl⟩)
  · refine .inr (.inr ⟨n, ?_⟩)
    by_cases hin : L.Installed k
    · by_cases hn : n = (L.mem k).fd
      · rw [hn, h.fdTable_self hin] at hl
        cases hl
      · rw [← h.fdTable_other n hn]
        exact hl
    · rw [← (h.idle hin).2.2]
      exact hl

/-- `fdevent_install` of another `fdevent`, when new memory holds no pointer. -/
lemma linked_of_install (h : L.fdeventInstall k n = .ok L') (hjk : j ≠ k)
    (hwild : ∀ i, L.fill i ≠ .fde j) (hl : L'.Linked j) : L.Linked j := by
  obtain ⟨T, M, rfl, hT, hother⟩ := fdeventInstall_ok h
  rcases hl with hl | hl | ⟨i, hl⟩
  · exact .inl hl
  · exact .inr (.inl hl)
  · by_cases hi : i = n
    · subst hi
      cases hT.symm.trans hl
      exact absurd rfl hjk
    · exact .inr (.inr ⟨i, (hother i j hi hl).resolve_right (hwild i)⟩)

/-- The kernel reports an event of an `fdevent` it refers to. -/
lemma linked_of_report (h : L.interest n = some (mask, k)) (e : EpollMask)
    (hl : (L.fdeventReport k e).Linked j) : L.Linked j := by
  unfold fdeventReport at hl
  simp only at hl
  split at hl
  · exact hl
  split at hl
  · exact hl
  · rcases hl with hl | hl | hl
    · rcases List.mem_append.mp hl with hl | hl
      · exact .inl hl
      · rw [List.mem_singleton] at hl
        exact .inr (.inl ⟨n, mask, hl ▸ h⟩)
    · exact .inr (.inl hl)
    · exact .inr (.inr hl)

lemma linked_of_dispatch (h : L.fdeventPlistDequeue = some (k, L'))
    (hl : (L'.fdeventCallFdfunc k).2.Linked j) : L.Linked j := by
  obtain ⟨rest, hlist, rfl⟩ := fdeventPlistDequeue_eq h
  have hcall : ∀ M : Loop κ, (M.fdeventCallFdfunc k).2.Linked j → M.Linked j := by
    intro M hM
    unfold fdeventCallFdfunc at hM
    simp only at hM
    split at hM
    · exact hM
    · exact hM
  rcases hcall _ hl with hl | hl | hl
  · left
    rw [hlist]
    exact List.mem_cons_of_mem k hl
  · exact .inr (.inl hl)
  · exact .inr (.inr hl)

omit [DecidableEq κ] in
lemma linked_of_close (hl : (L.adbClose n).Linked j) : L.Linked j := by
  rcases hl with hl | ⟨i, m, hl⟩ | hl
  · exact .inl hl
  · refine .inr (.inl ⟨i, m, ?_⟩)
    by_cases hi : i = n
    · rw [hi, show (L.adbClose n).interest n = none from update_self ..] at hl
      cases hl
    · exact (update_of_ne hi ..).symm.trans hl
  · exact .inr (.inr hl)

end Loop

open Loop

variable {e : Event} {D₀ : Daemon} {m m' : Moment} {t : TAddr}

/-- The `auth_fde` of a transport is linked by a step that forwards a key of its host. -/
theorem Effect.authLinked_cases (he : Effect e D₀ m m') (h : Wf m)
    (hl : AuthLinked t m'.d.loop) :
    AuthLinked t m.d.loop ∨ m.Serving t ∧ Forwards e D₀ t := by
  have hwild : ∀ i, m.d.loop.fill i ≠ .fde (.auth t) := fun i => h.loop.wild i (.auth t)
  have hclose : ∀ (L : Loop FdeId) (n : ℕ), (AuthLinked t L → AuthLinked t m.d.loop) →
      AuthLinked t (L.adbClose n) → AuthLinked t m.d.loop :=
    fun L n hL hl => hL (linked_of_close hl)
  cases he
  case uninstall a L _ _ hrem => exact .inl (hrem.linked hl)
  case retire a s i ev L _ _ _ _ _ _ _ hset _ _ => exact .inl (hset.linked (by simp) hl)
  case createFd n L _ _ hins =>
    exact .inl (@linked_of_install _ _ _ _ (m.d.loop.setMem _ {}) _ _ hins (by simp) hwild hl)
  case await a s ev L _ _ _ _ _ _ _ hset _ _ _ _ _ => exact .inl (hset.linked (by simp) hl)
  case enqueueLink a s p out ev L _ _ _ _ _ _ hset _ _ _ _ =>
    exact .inl (hset.linked (by simp) hl)
  case flushed a s ev L _ _ _ _ _ hset _ _ _ _ _ _ _ => exact .inl (hset.linked (by simp) hl)
  case subscribe a s ev L _ _ _ hset _ _ _ _ => exact .inl (hset.linked (by simp) hl)
  case grant a s ev L _ _ _ hset _ _ _ _ _ => exact .inl (hset.linked (by simp) hl)
  case wrteRead a r s q p u x ev L _ _ _ _ _ _ hset _ _ _ _ _ _ _ =>
    exact .inl (hset.linked (by simp) hl)
  case report n ev mask k hn hrep => exact .inl (linked_of_report hn ev hl)
  case dispatch k L hd => exact .inl (linked_of_dispatch hd hl)
  case rearm L ev hset => exact .inl (hset.linked (by simp) hl)
  case confirm u n p L M hp hcmd hn hfwd hhist hL hM =>
    by_cases hut : u = t
    · subst hut
      exact .inr ⟨⟨p, hp, hcmd⟩, hfwd⟩
    · have hne : FdeId.auth t ≠ .auth u := fun heq => hut (FdeId.auth.inj heq).symm
      have hset := fdeventSet_spec hM
      exact .inl (linked_of_install hL hne hwild (hset.linked hne hl))
  case authDropped u L hrem => exact .inl ((fdeventRemove_spec hrem).linked hl)
  case start u x rest n k L M hreg hx hn hk hnk hL hM =>
    have hset := fdeventSet_spec hM
    have hl' : L.Linked (.auth t) := hset.linked (by simp) hl
    exact .inl (@linked_of_install _ _ _ _
      { m.d.loop with inUse := update (update _ n true) k true } _ _ hL (by simp) hwild hl')
  case unplug u x rest L hreg hx hrem hsame hL own own' =>
    exact .inl ((fdeventRemove_spec hL).linked (linked_of_close hl))
  case output u x y L R os n hidle hx hact hstep =>
    exact .inl (hstep.closes hclose id hl)
  case input u x y L R os n hidle hx hstart hstep =>
    exact .inl (hstep.closes hclose id hl)
  case closed n hn => exact .inl (linked_of_close hl)
  all_goals exact .inl hl

/-- The `auth_fde` of a transport is linked when a packet of it is handled that is no `A_SYNC`. -/
theorem Effect.authLinked (he : Effect e D₀ m m') (h : Wf m) (hl : AuthLinked t m'.d.loop) :
    AuthLinked t m.d.loop ∨ m.Serving t :=
  (he.authLinked_cases h hl).imp_right And.left

/-- A step that links the `auth_fde` of a transport forwards its key. -/
theorem authLinked_step {D D' : Daemon} (hwf : Wf { d := D }) (hs : D.step e = .ok D')
    (hl : AuthLinked t D'.loop) : AuthLinked t D.loop ∨ Forwards e D t :=
  @before_of_step _ _ _ (fun D => AuthLinked t D.loop) _ hwf hs
    (fun _ _ _ hwf he hl => (he.authLinked_cases hwf hl).imp_right And.right) hl

end Adbd
