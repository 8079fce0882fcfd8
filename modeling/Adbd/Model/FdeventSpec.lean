import Adbd.Framework.Transition
import Adbd.Model.Fdevent

/-!
# What each `fdevent` operation does

One specification lemma for each operation of `Adbd.Model.Fdevent`, so that the callers never
unfold it.  All of them say the same kind of thing: which `fdevent` structs are left alone, what
happened to the state word of the one operated on, and which interest-list entries can be new.
-/

namespace Adbd

open FlagWord

namespace Loop

variable {κ : Type} [DecidableEq κ]

/-! ## Reading the packed state word -/

/-- `fdevent_install` succeeded on `k` and `fdevent_remove` has not run since. -/
def Installed (k : κ) (L : Loop κ) : Prop := has (L.mem k).state fdeActive = true

instance (k : κ) (L : Loop κ) : Decidable (L.Installed k) :=
  inferInstanceAs (Decidable (_ = _))

/-- The low byte is all events and the unused bits `0x00f8`. -/
lemma has_eventMask (x : BitVec 16) :
    has x fdeEventMask = ((epollMask x).nonzero || has x 0x00f8#16) := by
  have hmask : fdeEventMask = fdeRead ||| fdeWrite ||| fdeError ||| 0x00f8#16 := by decide
  rw [hmask, has_or_mask, has_or_mask, has_or_mask]
  rfl

/-- When a new low byte is spliced under the old high byte, tests above the event mask read the
old word. -/
lemma has_splice_high {x e m : BitVec 16} (h : fdeStateMask &&& m = m)
    (he : has e m = false) : has ((x &&& fdeStateMask) ||| e) m = has x m := by
  rw [has_or, has_and_of_covered h, he, Bool.or_false]

lemma epollMask_congr {x y : BitVec 16} (h : x &&& fdeEventMask = y &&& fdeEventMask) :
    epollMask x = epollMask y := by
  rw [epollMask, epollMask, has_congr h (by decide), has_congr h (by decide),
    has_congr h (by decide)]

lemma and_eventMask_splice (x e : BitVec 16) :
    ((x &&& fdeStateMask) ||| (e &&& fdeEventMask)) &&& fdeEventMask = e &&& fdeEventMask := by
  have hdis : fdeStateMask &&& fdeEventMask = 0#16 := by decide
  rw [BitVec.and_or_distrib_right, BitVec.and_assoc, hdis, BitVec.and_assoc, BitVec.and_self]
  simp

/-- Splicing the same low byte twice changes nothing more. -/
lemma splice_splice (x e : BitVec 16) :
    (((x &&& fdeStateMask) ||| (e &&& fdeEventMask)) &&& fdeStateMask) |||
      (e &&& fdeEventMask) = (x &&& fdeStateMask) ||| (e &&& fdeEventMask) := by
  have hdis : fdeEventMask &&& fdeStateMask = 0#16 := by decide
  rw [BitVec.and_or_distrib_right, BitVec.and_assoc, BitVec.and_self, BitVec.and_assoc, hdis]
  simp

lemma epollMask_and_eventMask (e : BitVec 16) : epollMask (e &&& fdeEventMask) = epollMask e :=
  epollMask_congr (by rw [BitVec.and_assoc, BitVec.and_self])

/-! ## `setMem` -/

@[simp] lemma setMem_mem_self (k : κ) (f : Fdevent) (L : Loop κ) : (L.setMem k f).mem k = f :=
  Function.update_self ..

lemma setMem_mem_of_ne {j k : κ} (h : j ≠ k) (f : Fdevent) (L : Loop κ) :
    (L.setMem k f).mem j = L.mem j :=
  Function.update_of_ne h ..

/-- Rewriting an `fdevent` whose active flag stays. -/
lemma installed_setMem {k : κ} {f : Fdevent} {L : Loop κ}
    (h : has f.state fdeActive = has (L.mem k).state fdeActive) (j : κ) :
    (L.setMem k f).Installed j ↔ L.Installed j := by
  by_cases hj : j = k
  · rw [Installed, Installed, hj, setMem_mem_self, h]
  · rw [Installed, Installed, setMem_mem_of_ne hj]

/-! ## The pending list -/

lemma installed_fdeventReport (k : κ) (ev : EpollMask) (L : Loop κ) (j : κ) :
    (L.fdeventReport k ev).Installed j ↔ L.Installed j := by
  have hpend : has ((L.mem k).state ||| fdePending) fdeActive = has (L.mem k).state fdeActive := by
    rw [has_or, show has fdePending fdeActive = false by decide, Bool.or_false]
  unfold fdeventReport
  simp only
  split
  · exact installed_setMem (by rfl) j
  split
  · exact installed_setMem (by rfl) j
  · apply Iff.trans (installed_setMem _ j) (installed_setMem _ j)
    · rw [setMem_mem_self]
      exact hpend
    · rfl

omit [DecidableEq κ] in
lemma fdeventPlistDequeue_eq {k : κ} {L L' : Loop κ}
    (h : L.fdeventPlistDequeue = some (k, L')) :
    ∃ rest, L.listPending = k :: rest ∧ L' = { L with listPending := rest } := by
  unfold fdeventPlistDequeue at h
  split at h
  · cases h
  case h_2 j rest hlist =>
    cases h
    exact ⟨rest, hlist, rfl⟩

lemma installed_fdeventCallFdfunc (k : κ) (L : Loop κ) (j : κ) :
    (L.fdeventCallFdfunc k).2.Installed j ↔ L.Installed j := by
  unfold fdeventCallFdfunc
  simp only
  split
  · exact installed_setMem (by exact has_and_not_of_disjoint (by decide)) j
  · exact installed_setMem (by rfl) j

/-! ## `fdevent_set`, `fdevent_add`, `fdevent_del` -/

/-- What a successful `fdevent_set(k, ev)` does. -/
structure SetSpec (k : κ) (ev : BitVec 16) (L L' : Loop κ) : Prop where
  mem_other : ∀ j, j ≠ k → L'.mem j = L.mem j
  fd : (L'.mem k).fd = (L.mem k).fd
  forceEof : (L'.mem k).forceEof = (L.mem k).forceEof
  /-- The subscription is the new one. -/
  low : (L'.mem k).state &&& fdeEventMask = ev &&& fdeEventMask
  active : has (L'.mem k).state fdeActive = has (L.mem k).state fdeActive
  /-- No event becomes pending. -/
  events : ∀ m, has (L'.mem k).events m = true → has (L.mem k).events m = true
  /-- The `fdevent` stays on the pending list with its flag, or loses both. -/
  pending : L'.listPending = L.listPending ∧
      has (L'.mem k).state fdePending = has (L.mem k).state fdePending ∨
    L'.listPending = L.listPending.erase k ∧ has (L.mem k).state fdePending = true
  fdTable : L'.fdTable = L.fdTable
  fdTableMax : L'.fdTableMax = L.fdTableMax
  inUse : L'.inUse = L.inUse
  interest_other : ∀ n, n ≠ (L.mem k).fd → L'.interest n = L.interest n
  /-- An entry at the descriptor is the old one of somebody else, or mirrors the new
  subscription of `k`. -/
  interest_self : ∀ m j, L'.interest (L.mem k).fd = some (m, j) →
    L.interest (L.mem k).fd = some (m, j) ∧ L' = L ∨
    L.interest (L.mem k).fd = some (m, j) ∧
      ((epollMask ev).nonzero = false ∧ has (L.mem k).state fdeEventMask = false ∨
        has (L.mem k).state fdeActive = false) ∨
    j = k ∧ m = epollMask ev ∧ has (L.mem k).state fdeActive = true
  /-- The kernel only accepts descriptors that are open. -/
  opened : ∀ e, L'.interest (L.mem k).fd = some e →
    L.inUse (L.mem k).fd = true ∨ (L.interest (L.mem k).fd).isSome = true
  fill : L'.fill = L.fill
  /-- What is not installed is not registered. -/
  idle : ¬L.Installed k → L'.interest = L.interest

/-- `fdevent_update` rewrites one state word and at most one interest entry. -/
lemma fdeventUpdate_ok {k : κ} {ev : BitVec 16} {L L' : Loop κ}
    (h : L.fdeventUpdate k ev = .ok L') :
    ∃ I : ℕ → Option (EpollMask × κ),
      L' = { L.setMem k { L.mem k with
        state := ((L.mem k).state &&& fdeStateMask) ||| ev } with interest := I } ∧
      (∀ n, n ≠ (L.mem k).fd → I n = L.interest n) ∧
      (∀ m j, I (L.mem k).fd = some (m, j) →
        L.interest (L.mem k).fd = some (m, j) ∧ (epollMask ev).nonzero = false ∧
          has (L.mem k).state fdeEventMask = false ∨
        j = k ∧ m = epollMask ev) ∧
      (∀ e, I (L.mem k).fd = some e →
        L.inUse (L.mem k).fd = true ∨ (L.interest (L.mem k).fd).isSome = true) := by
  unfold fdeventUpdate epollCtl at h
  simp only at h
  split at h
  case isTrue hnz =>
    refine ⟨Function.update L.interest (L.mem k).fd (some (epollMask ev, k)), ?_, ?_, ?_, ?_⟩
    · split at h
      all_goals
        split at h
        · exact (Except.ok.inj h).symm
        · exact absurd h (by simp)
    · intro n hn
      exact Function.update_of_ne hn ..
    · intro m j hmj
      rw [Function.update_self, Option.some.injEq, Prod.mk.injEq] at hmj
      exact .inr ⟨hmj.2.symm, hmj.1.symm⟩
    · intro e _
      split at h
      · split at h
        case isTrue hsome => exact .inr hsome
        · exact absurd h (by simp)
      · split at h
        case isTrue hopen => exact .inl (Bool.and_eq_true_iff.mp hopen).1
        · exact absurd h (by simp)
  case isFalse hnz =>
    have hzero : (epollMask ev).nonzero = false := by simpa using hnz
    split at h
    · split at h
      · refine ⟨Function.update L.interest (L.mem k).fd none, (Except.ok.inj h).symm, ?_, ?_, ?_⟩
        · intro n hn
          exact Function.update_of_ne hn ..
        · intro m j hmj
          simp at hmj
        · intro e he
          simp at he
      · exact absurd h (by simp)
    case isFalse hlow =>
      exact ⟨L.interest, (Except.ok.inj h).symm, fun _ _ => rfl,
        fun m j hmj => .inl ⟨hmj, hzero, by simpa using hlow⟩,
        fun e he => .inr (by rw [he]; rfl)⟩

/-- The tail of `fdevent_set` rewrites one struct and the pending list, and can only take
events off. -/
lemma dropPending_eq (k : κ) (ev : BitVec 16) (L : Loop κ) :
    ∃ f l, L.dropPending k ev = { L.setMem k f with listPending := l } ∧
      f.fd = (L.mem k).fd ∧ f.forceEof = (L.mem k).forceEof ∧
      (∀ m, fdePending &&& m = 0#16 → has f.state m = has (L.mem k).state m) ∧
      f.state &&& fdeEventMask = (L.mem k).state &&& fdeEventMask ∧
      (∀ m, has f.events m = true → has (L.mem k).events m = true) ∧
      (l = L.listPending ∧ has f.state fdePending = has (L.mem k).state fdePending ∨
        l = L.listPending.erase k ∧ has (L.mem k).state fdePending = true) := by
  unfold dropPending
  simp only
  split
  case isTrue hpend =>
    split
    · refine ⟨{ L.mem k with
            state := (L.mem k).state &&& ~~~fdePending
            events := (L.mem k).events &&& ~~~ev }, L.listPending.erase k, ?_, rfl, rfl,
        fun m hm => has_and_not_of_disjoint hm, ?_, fun m hm => has_of_has_and hm,
        .inr ⟨rfl, hpend⟩⟩
      · simp [setMem, fdeventPlistRemove]
      · have hmask : ~~~fdePending &&& fdeEventMask = fdeEventMask := by decide
        rw [BitVec.and_assoc, hmask]
    · exact ⟨{ L.mem k with events := (L.mem k).events &&& ~~~ev }, L.listPending, rfl, rfl, rfl,
        fun _ _ => rfl, rfl, fun m hm => has_of_has_and hm, .inl ⟨rfl, rfl⟩⟩
  case isFalse =>
    refine ⟨L.mem k, L.listPending, ?_, rfl, rfl, fun _ _ => rfl, rfl, fun _ h => h,
      .inl ⟨rfl, rfl⟩⟩
    simp [setMem]

/-- A successful `fdevent_set` meets its specification. -/
theorem fdeventSet_spec {k : κ} {ev : BitVec 16} {L L' : Loop κ}
    (h : L.fdeventSet k ev = .ok L') : SetSpec k ev L L' := by
  unfold fdeventSet at h
  simp only at h
  by_cases hsame : (L.mem k).state &&& fdeEventMask = ev &&& fdeEventMask
  · rw [if_pos hsame] at h
    cases h
    exact ⟨fun _ _ => rfl, rfl, rfl, hsame, rfl, fun _ h => h, .inl ⟨rfl, rfl⟩, rfl,
      rfl, rfl, fun _ _ => rfl, fun m j hmj => .inl ⟨hmj, rfl⟩,
      fun e he => .inr (by rw [he]; rfl), rfl, fun _ => rfl⟩
  · rw [if_neg hsame, Transition.bind_eq_ok_iff] at h
    obtain ⟨M, hM, h⟩ := h
    -- `fdevent_update` and the assignment after it write the same word
    obtain ⟨I, hMeq, hother, hself, hopened, hidle⟩ : ∃ I : ℕ → Option (EpollMask × κ),
        M.setMem k { M.mem k with
          state := ((M.mem k).state &&& fdeStateMask) ||| (ev &&& fdeEventMask) } =
        { L.setMem k { L.mem k with
          state := ((L.mem k).state &&& fdeStateMask) ||| (ev &&& fdeEventMask) } with
          interest := I } ∧
        (∀ n, n ≠ (L.mem k).fd → I n = L.interest n) ∧
        (∀ m j, I (L.mem k).fd = some (m, j) →
          L.interest (L.mem k).fd = some (m, j) ∧
            ((epollMask ev).nonzero = false ∧ has (L.mem k).state fdeEventMask = false ∨
              has (L.mem k).state fdeActive = false) ∨
          j = k ∧ m = epollMask ev ∧ has (L.mem k).state fdeActive = true) ∧
        (∀ e, I (L.mem k).fd = some e →
          L.inUse (L.mem k).fd = true ∨ (L.interest (L.mem k).fd).isSome = true) ∧
        (¬L.Installed k → I = L.interest) := by
      by_cases hact : has (L.mem k).state fdeActive = true
      · rw [if_pos hact] at hM
        obtain ⟨I, rfl, hother, hself, hopened⟩ := fdeventUpdate_ok hM
        refine ⟨I, ?_, hother, ?_, hopened, fun hidle => absurd hact hidle⟩
        · simp [setMem, splice_splice]
        · intro m j hmj
          rcases hself m j hmj with ⟨hold, hz, hlow⟩ | hnew
          · exact .inl ⟨hold, .inl ⟨epollMask_and_eventMask ev ▸ hz, hlow⟩⟩
          · exact .inr ⟨hnew.1, epollMask_and_eventMask ev ▸ hnew.2, hact⟩
      · rw [if_neg hact, Except.ok.injEq] at hM
        subst hM
        exact ⟨L.interest, rfl, fun _ _ => rfl,
          fun m j hmj => .inl ⟨hmj, .inr (by simpa using hact)⟩,
          fun e he => .inr (by rw [he]; rfl), fun _ => rfl⟩
    rw [hMeq] at h
    cases h
    set N : Loop κ := { L.setMem k { L.mem k with
          state := ((L.mem k).state &&& fdeStateMask) ||| (ev &&& fdeEventMask) } with
          interest := I } with hN
    have hNk : N.mem k = { L.mem k with
        state := ((L.mem k).state &&& fdeStateMask) ||| (ev &&& fdeEventMask) } := by
      simp [hN]
    obtain ⟨f, l, heq, hfd, hforce, hstate, hlow, hevents, hqueue⟩ :=
      dropPending_eq k (ev &&& fdeEventMask) N
    rw [heq]
    rw [hNk] at hfd hforce hstate hlow hevents hqueue
    have hpend : has (((L.mem k).state &&& fdeStateMask) ||| (ev &&& fdeEventMask)) fdePending =
        has (L.mem k).state fdePending :=
      has_splice_high (by decide) (has_and_of_disjoint (by decide))
    simp only [hpend] at hqueue
    refine ⟨?_, ?_, ?_, ?_, ?_, ?_, ?_, rfl, rfl, rfl, hother, ?_, hopened, rfl, hidle⟩
    · intro j hj
      simp [setMem, hN, Function.update_of_ne hj]
    · simpa using hfd
    · simpa using hforce
    · rw [setMem_mem_self, hlow, and_eventMask_splice]
    · rw [setMem_mem_self, hstate _ (by decide), has_splice_high (by decide)]
      exact has_and_of_disjoint (by decide)
    · intro m hm
      exact hevents m (by simpa using hm)
    · simp only [setMem_mem_self]
      exact hqueue
    · intro m j hmj
      rcases hself m j hmj with ⟨hold, hz⟩ | hnew
      · exact .inr (.inl ⟨hold, hz⟩)
      · exact .inr (.inr hnew)

/-- What a `fdevent_set` that changes the subscription leaves pending. -/
lemma fdeventSet_pending {k : κ} {ev : BitVec 16} {L L' : Loop κ} (h : L.fdeventSet k ev = .ok L')
    (hnew : (L.mem k).state &&& fdeEventMask ≠ ev &&& fdeEventMask) :
    (has (L.mem k).state fdePending = false ∧ (L'.mem k).events = (L.mem k).events ∧
      has (L'.mem k).state fdePending = false ∧ L'.listPending = L.listPending) ∨
    (has (L.mem k).state fdePending = true ∧
      (L'.mem k).events = (L.mem k).events &&& ~~~(ev &&& fdeEventMask) ∧
      has (L'.mem k).state fdePending = ((L'.mem k).events != 0#16) ∧
      L'.listPending = if (L'.mem k).events = 0#16 then L.listPending.erase k
        else L.listPending) := by
  unfold fdeventSet at h
  simp only at h
  rw [if_neg hnew, Transition.bind_eq_ok_iff] at h
  obtain ⟨M, hM, h⟩ := h
  obtain ⟨hevents, hstate, hlist⟩ : (M.mem k).events = (L.mem k).events ∧
      has (M.mem k).state fdePending = has (L.mem k).state fdePending ∧
      M.listPending = L.listPending := by
    split at hM
    · obtain ⟨I, rfl, -, -, -⟩ := fdeventUpdate_ok hM
      refine ⟨by simp, ?_, rfl⟩
      simp only [setMem_mem_self]
      exact has_splice_high (by decide) (has_and_of_disjoint (by decide))
    · cases hM
      exact ⟨rfl, rfl, rfl⟩
  have hpend : has (((M.mem k).state &&& fdeStateMask) ||| (ev &&& fdeEventMask)) fdePending =
      has (L.mem k).state fdePending :=
    (has_splice_high (by decide) (has_and_of_disjoint (by decide))).trans hstate
  cases h
  unfold dropPending
  simp only [setMem_mem_self, hpend, hevents]
  by_cases hp : has (L.mem k).state fdePending = true
  · right
    rw [if_pos hp]
    by_cases hleft : (L.mem k).events &&& ~~~(ev &&& fdeEventMask) = 0#16
    · rw [if_pos hleft]
      refine ⟨hp, ?_, ?_, ?_⟩
      · simp [fdeventPlistRemove]
      · simp only [setMem_mem_self]
        rw [hleft]
        exact has_and_of_disjoint (by decide)
      · simp [fdeventPlistRemove, setMem, hleft, hlist]
    · rw [if_neg hleft]
      refine ⟨hp, by simp, ?_, ?_⟩
      · simp only [setMem_mem_self]
        rw [hpend, hp]
        simpa using hleft
      · simp [setMem, hleft, hlist]
  · left
    rw [if_neg hp]
    refine ⟨by simpa using hp, by simp, ?_, hlist⟩
    rw [setMem_mem_self, hpend]
    simpa using hp

/-- A `fdevent_set` to the subscription there is already does nothing. -/
lemma fdeventSet_same {k : κ} {ev : BitVec 16} {L L' : Loop κ} (h : L.fdeventSet k ev = .ok L')
    (hsame : (L.mem k).state &&& fdeEventMask = ev &&& fdeEventMask) : L' = L := by
  unfold fdeventSet at h
  simp only at h
  rw [if_pos hsame] at h
  exact (Except.ok.inj h).symm

/-! The subscription that `fdevent_add` and `fdevent_del` ask for. -/

/-- `fdevent_add` adds its events to the subscription. -/
lemma has_add {x ev m : BitVec 16} (hm : fdeEventMask &&& m = m) :
    has ((x &&& fdeEventMask) ||| (ev &&& fdeEventMask)) m = (has x m || has ev m) := by
  rw [has_or, has_and_of_covered hm, has_and_of_covered hm]

/-- `fdevent_del` leaves the other events. -/
lemma has_del_of_disjoint {x ev m : BitVec 16} (hm : fdeEventMask &&& m = m)
    (hd : (ev &&& fdeEventMask) &&& m = 0#16) :
    has ((x &&& fdeEventMask) &&& ~~~(ev &&& fdeEventMask)) m = has x m := by
  rw [has_and_not_of_disjoint hd, has_and_of_covered hm]

/-- `fdevent_del` takes its events off. -/
lemma has_del_self {x ev m : BitVec 16} (hd : ~~~(ev &&& fdeEventMask) &&& m = 0#16) :
    has ((x &&& fdeEventMask) &&& ~~~(ev &&& fdeEventMask)) m = false :=
  has_and_of_disjoint hd

/-- `fdevent_set` stops only when `epoll_ctl` fails. -/
lemma fdeventSet_error {k : κ} {ev : BitVec 16} {L : Loop κ} {s : Stop}
    (h : L.fdeventSet k ev = .error s) : ∃ n, s = .epollCtl n := by
  unfold fdeventSet at h
  simp only at h
  split at h
  · cases h
  · rw [Transition.bind_eq_error_iff] at h
    rcases h with h | ⟨M, -, h⟩
    · split at h
      · unfold fdeventUpdate epollCtl at h
        simp only at h
        split at h
        all_goals
          split at h
          · split at h
            · cases h
            · exact ⟨_, (Except.error.inj h).symm⟩
        · split at h
          · cases h
          · exact ⟨_, (Except.error.inj h).symm⟩
        · cases h
      · cases h
    · cases h

/-! ## `fdevent_install`, `fdevent_create`, `fdevent_remove` -/

/-- A successful `fdevent_install` writes the struct and the table, nothing else. -/
lemma fdeventInstall_ok {k : κ} {n : ℕ} {L L' : Loop κ} (h : L.fdeventInstall k n = .ok L') :
    ∃ T M, L' = { L.setMem k { fd := n, state := fdeActive } with
      fdTable := T
      fdTableMax := M } ∧ T n = .fde k ∧
      ∀ i j, i ≠ n → T i = .fde j → L.fdTable i = .fde j ∨ L.fill i = .fde j := by
  unfold fdeventInstall fdeventRegister at h
  simp only [setMem_mem_self] at h
  split at h
  · split at h
    · exact absurd h (by simp)
    · cases h
      refine ⟨_, _, rfl, Function.update_self .., fun i j hi hj => ?_⟩
      rw [Function.update_of_ne hi] at hj
      by_cases hold : i < L.fdTableMax
      · rw [if_pos (show i < (setMem k { fd := n, state := fdeActive } L).fdTableMax from hold)]
          at hj
        exact .inl hj
      · rw [if_neg (show ¬i < (setMem k { fd := n, state := fdeActive } L).fdTableMax from hold)]
          at hj
        right
        by_contra hfill
        rw [ite_eq_iff] at hj
        rcases hj with ⟨-, hj⟩ | ⟨-, hj⟩
        · exact absurd hj (by simp)
        · exact hfill hj
  · cases h
    refine ⟨_, _, rfl, Function.update_self .., fun i j hi hj => ?_⟩
    rw [Function.update_of_ne hi] at hj
    exact .inl hj

/-- `fdevent_create` differs from `fdevent_install` in one flag of the high byte. -/
lemma fdeventCreate_ok {k : κ} {n : ℕ} {L L' : Loop κ} (h : L.fdeventCreate k n = .ok L') :
    ∃ T M, L' = { L.setMem k { fd := n, state := fdeActive ||| fdeCreated } with
      fdTable := T
      fdTableMax := M } ∧ T n = .fde k ∧
      ∀ i j, i ≠ n → T i = .fde j → L.fdTable i = .fde j ∨ L.fill i = .fde j := by
  rw [fdeventCreate, Transition.bind_eq_ok_iff] at h
  obtain ⟨M, hM, h⟩ := h
  obtain ⟨T, m, rfl, hT, hother⟩ := fdeventInstall_ok hM
  cases h
  exact ⟨T, m, by simp [setMem], hT, hother⟩

/-- `fdevent_install` stops only on a descriptor out of range. -/
lemma fdeventInstall_error {k : κ} {n : ℕ} {L : Loop κ} {s : Stop}
    (h : L.fdeventInstall k n = .error s) : s = .fatalFd n := by
  unfold fdeventInstall fdeventRegister at h
  simp only [setMem_mem_self] at h
  split at h
  · split at h
    · exact (Except.error.inj h).symm
    · exact absurd h (by simp)
  · exact absurd h (by simp)

lemma fdeventCreate_error {k : κ} {n : ℕ} {L : Loop κ} {s : Stop}
    (h : L.fdeventCreate k n = .error s) : s = .fatalFd n := by
  rw [fdeventCreate, Transition.bind_eq_error_iff] at h
  rcases h with h | ⟨M, -, h⟩
  · exact fdeventInstall_error h
  · exact absurd h (by simp [pure, Except.pure])

/-- What a successful `fdevent_remove(k)` does. -/
structure RemoveSpec (k : κ) (L L' : Loop κ) : Prop where
  mem_other : ∀ j, j ≠ k → L'.mem j = L.mem j
  mem_self : L'.mem k = { L.mem k with state := 0#16, events := 0#16 }
  pending : L'.listPending =
    if has (L.mem k).state fdePending then L.listPending.erase k else L.listPending
  fdTable_other : ∀ n, n ≠ (L.mem k).fd → L'.fdTable n = L.fdTable n
  inUse_other : ∀ n, n ≠ (L.mem k).fd → L'.inUse n = L.inUse n
  interest_other : ∀ n, n ≠ (L.mem k).fd → L'.interest n = L.interest n
  interest_self : L.Installed k → L'.interest (L.mem k).fd = none
  idle : ¬L.Installed k → L'.inUse = L.inUse ∧ L'.interest = L.interest ∧ L'.fdTable = L.fdTable
  /-- The descriptor is closed, unless the flag in the state word forbids it. -/
  closes : L.Installed k → has (L.mem k).state fdeDontClose = false →
    L'.inUse (L.mem k).fd = false
  interest_sub : ∀ n e, L'.interest n = some e → L.interest n = some e
  fdTable_self : L.Installed k → L'.fdTable (L.mem k).fd = .null
  inUse_sub : ∀ n, L'.inUse n = true → L.inUse n = true
  fill : L'.fill = L.fill
  fdTableMax : L'.fdTableMax = L.fdTableMax

theorem fdeventRemove_spec {k : κ} {L L' : Loop κ} (h : L.fdeventRemove k = .ok L') :
    RemoveSpec k L L' := by
  unfold fdeventRemove at h
  simp only at h
  set P : Loop κ := if has (L.mem k).state fdePending then L.fdeventPlistRemove k else L with hP
  have hPeq : ∃ l, P = { L with listPending := l } ∧
      l = if has (L.mem k).state fdePending then L.listPending.erase k else L.listPending := by
    rw [hP]
    split
    · exact ⟨_, rfl, rfl⟩
    · exact ⟨_, rfl, rfl⟩
  obtain ⟨l, hl, hqueue⟩ := hPeq
  rw [hl, Transition.bind_eq_ok_iff] at h
  obtain ⟨M, hM, h⟩ := h
  cases h
  by_cases hact : has (L.mem k).state fdeActive = true
  · -- installed: disconnect, clear the table slot, perhaps close
    rw [if_pos hact] at hM
    unfold fdeventUnregister fdeventDisconnect at hM
    simp only at hM
    split at hM
    · exact absurd hM (by simp)
    split at hM
    · exact absurd hM (by simp)
    cases hM
    refine ⟨?_, ?_, ?_, ?_, ?_, ?_, ?_, ?_, ?_, ?_, ?_, ?_, ?_, ?_⟩
    · intro j hj
      split <;> simp [setMem, adbClose, Function.update_of_ne hj]
    · split <;> simp [adbClose]
    · rw [← hqueue]
      split <;> rfl
    · intro n hn
      split <;> simp [setMem, adbClose, Function.update_of_ne hn]
    · intro n hn
      split <;> simp [setMem, adbClose, Function.update_of_ne hn]
    · intro n hn
      split <;> simp [setMem, adbClose, Function.update_of_ne hn]
    · intro _
      split <;> simp [setMem, adbClose]
    · intro hidle
      exact absurd hact hidle
    · intro _ hclose
      rw [if_neg (by simp [hclose])]
      simp [setMem, adbClose]
    · intro n e he
      by_cases hn : n = (L.mem k).fd
      · subst hn
        split at he <;> simp [setMem, adbClose] at he
      · split at he <;> simpa [setMem, adbClose, Function.update_of_ne hn] using he
    · intro _
      split <;> simp [setMem, adbClose]
    · intro n hn
      split at hn
      · exact hn
      · by_cases hn' : n = (L.mem k).fd
        · simp [setMem, adbClose, hn'] at hn
        · simpa [setMem, adbClose, Function.update_of_ne hn'] using hn
    · split <;> rfl
    · split <;> rfl
  · rw [if_neg hact, Except.ok.injEq] at hM
    subst hM
    exact ⟨fun j hj => setMem_mem_of_ne hj .., by simp, hqueue, fun _ _ => rfl,
      fun _ _ => rfl, fun _ _ => rfl, fun hin => absurd hin hact, fun _ => ⟨rfl, rfl, rfl⟩,
      fun hin => absurd hin hact, fun _ _ he => he, fun hin => absurd hin hact, fun _ h => h, rfl,
      rfl⟩

lemma fdeventUnregister_error {k : κ} {L : Loop κ} {s : Stop}
    (h : L.fdeventUnregister k = .error s) : ∃ n, s = .fatalFd n := by
  unfold fdeventUnregister at h
  simp only at h
  split at h
  · exact ⟨_, (Except.error.inj h).symm⟩
  split at h
  · exact ⟨_, (Except.error.inj h).symm⟩
  · exact absurd h (by simp)

/-- `fdevent_remove` stops only on a table that is out of sync. -/
lemma fdeventRemove_error {k : κ} {L : Loop κ} {s : Stop}
    (h : L.fdeventRemove k = .error s) : ∃ n, s = .fatalFd n := by
  rw [fdeventRemove, Transition.bind_eq_error_iff] at h
  generalize (if has (L.mem k).state fdePending = true then fdeventPlistRemove k L else L) = P at h
  rcases h with h | ⟨M, -, h⟩
  · split at h
    · exact fdeventUnregister_error h
    · exact absurd h (by simp)
  · exact absurd h (by simp [pure, Except.pure])

end Loop

end Adbd
