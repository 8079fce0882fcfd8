import Adbd.Model.Subprocess

/-!
# Each waiter has its own child

`create_subproc_thread` does not look at what `create_subprocess` has returned: where there is no
child, it starts a waiter all the same, with 0 or −1 for its pid, and `waitpid` takes that for
any child of the process group or any child at all.  Such a waiter takes the status of another
stream's child, whose own waiter then waits for ever.  `framebuffer_service` does the same without a
waiter: where its `pipe` or `fork` has failed it calls `waitpid` with −1.

As long as no waiter is started without a child that has its status still to give, and no other
service takes the status of a child that a waiter is waiting for, a pid stands for one child until
its waiter has taken its status, and every waiter takes that of its own child, writes one
notification and ends.  Other services take only the statuses of their own children as long as they
can fork.
-/

namespace Adbd

namespace Subprocess

open Transition

/-! ## The property -/

/-- What a waiter has written to `SHELL_EXIT_NOTIFY_FD`. -/
def notifications (w : ℕ) (tr : List Obs) : List Int :=
  tr.filterMap fun
    | .notified v fd => if v = w then some fd else none
    | _ => none

/-- Where a waiter is. -/
def State.pcOf (w : ℕ) (s : State) : Option WaiterPc := (s.waiters[w]?).map (·.pc)

/-- The waiter is on its way to its end: unless it is interrupted, `waitpid` returns at once with
the status of its child, and that breaks the loop. -/
structure Ends (s : State) (w : ℕ) (v : Waiter) (c : ℕ) : Prop where
  wakes : v.pc = .waiting → ∃ s', step (.round w (.status c)) s = .ok s' ∧
    s'.pcOf w = some .exited
  only : ∀ r s', step (.round w r) s = .ok s' → r = .interrupted ∨ r = .status c
  notifies : v.pc = .exited → ∃ s', step (.notify w) s = .ok s' ∧ s'.pcOf w = some .ended

/-- Shell waiters stay with their own child. -/
structure Faithful (s : State) : Prop where
  /-- A waiter reaps only the child that its stream started. -/
  own : ∀ w c, .reaped w c ∈ s.trace → ∃ v : Waiter, s.waiters[w]? = some v ∧ v.child = some c
  /-- It ends once that child has exited. -/
  ends : ∀ (w : ℕ) (v : Waiter) (c : ℕ), s.waiters[w]? = some v → v.child = some c →
    (∃ p : Child, s.children[c]? = some p ∧ p.life ≠ .running) → Ends s w v c
  /-- It has written one notification when it ends, and none before that. -/
  notified : ∀ (w : ℕ) (v : Waiter), s.waiters[w]? = some v →
    notifications w s.trace = if v.pc = .ended then [v.fd] else []
  /-- The descriptor in it is the one that was returned for the stream. -/
  fd : ∀ (w : ℕ) (v : Waiter), s.waiters[w]? = some v → .returned v.child v.fd ∈ s.trace
  /-- Without a child, `create_subproc_thread` returns a negative value … -/
  negative : ∀ ret, .returned none ret ∈ s.trace → ret < 0
  /-- … and starts no waiter. -/
  started : ∀ (w : ℕ) (v : Waiter), s.waiters[w]? = some v → v.child ≠ none

/-- The child's status has been taken. -/
def Gone (s : State) (c : ℕ) : Prop := ∃ p : Child, s.children[c]? = some p ∧ p.life = .reaped

/-- The step starts a waiter although `create_subprocess` has failed, or although another service
has taken the status of the child. -/
def StartsAlone (m : Move) (s : State) : Prop :=
  m = .thread true ∧ ∃ ret pid child, s.main = .created ret pid child ∧
    ∀ c, child = some c → Gone s c

/-- Another service takes the status of a child that a waiter is waiting for. -/
def TakesAway (m : Move) (s : State) : Prop :=
  ∃ (o c w : ℕ) (v : Waiter), m = .otherWait o (.status c) ∧ s.waiters[w]? = some v ∧
    v.child = some c ∧ v.pc = .waiting ∧ ∃ s', step m s = .ok s'

/-- The step takes a waiter's child away from it. -/
def Stray (m : Move) (s : State) : Prop := StartsAlone m s ∨ TakesAway m s

/-! ## Lists -/

section Notifications

variable {w : ℕ} {tr : List Obs} {o : Obs}

lemma notifications_cons_of_ne (h : ∀ fd, o ≠ .notified w fd) :
    notifications w (o :: tr) = notifications w tr := by
  apply List.filterMap_cons_none
  cases o with
  | notified v fd =>
    have hne : v ≠ w := fun hv => h fd (hv ▸ rfl)
    exact if_neg hne
  | _ => rfl

lemma notifications_cons_self (fd : Int) :
    notifications w (.notified w fd :: tr) = fd :: notifications w tr := by
  apply List.filterMap_cons_some
  exact if_pos rfl

lemma notifications_eq_nil (h : ∀ fd, .notified w fd ∉ tr) : notifications w tr = [] := by
  refine List.filterMap_eq_nil_iff.mpr fun o ho => ?_
  cases o with
  | notified v fd =>
    have hne : v ≠ w := fun hv => h fd (hv ▸ ho)
    exact if_neg hne
  | _ => rfl

end Notifications

/-! ## The invariant -/

/-- No two children whose status is still to be taken have the same pid. -/
def PidsDiffer (cs : List Child) : Prop :=
  ∀ (i j : ℕ) (p q : Child), cs[i]? = some p → cs[j]? = some q →
    p.life ≠ .reaped → q.life ≠ .reaped → p.pid = q.pid → i = j

/-- The waiter `v`, number `w`, has the child `p`, number `c`, to itself. -/
structure Minds (s : State) (w : ℕ) (v : Waiter) (c : ℕ) (p : Child) : Prop where
  child : v.child = some c
  there : s.children[c]? = some p
  pid : v.pid = p.pid
  pos : 0 < p.pid
  life : v.pc = .waiting ↔ p.life ≠ .reaped
  notified : notifications w s.trace = if v.pc = .ended then [v.fd] else []
  fd : .returned v.child v.fd ∈ s.trace

/-- The child that the main thread is about to start a waiter for. -/
structure Expected (s : State) (ret pid : Int) (c : ℕ) (p : Child) : Prop where
  ret : 0 ≤ ret
  there : s.children[c]? = some p
  pid : pid = p.pid
  pos : 0 < p.pid
  free : ∀ (w : ℕ) (v : Waiter), s.waiters[w]? = some v → v.child ≠ some c

structure Inv (s : State) : Prop where
  notify : 0 ≤ s.shellExitNotifyFd
  pids : PidsDiffer s.children
  expected : ∀ ret pid c, s.main = .created ret pid (some c) → ∃ p, Expected s ret pid c p
  failed : ∀ ret pid, s.main = .created ret pid none → ret < 0
  minds : ∀ (w : ℕ) (v : Waiter), s.waiters[w]? = some v → ∃ c p, Minds s w v c p
  apart : ∀ (w w' : ℕ) (v v' : Waiter), s.waiters[w]? = some v → s.waiters[w']? = some v' →
    v.child = v'.child → w = w'
  own : ∀ w c, .reaped w c ∈ s.trace → ∃ v : Waiter, s.waiters[w]? = some v ∧ v.child = some c
  past : ∀ w fd, .notified w fd ∈ s.trace → ∃ v : Waiter, s.waiters[w]? = some v
  negative : ∀ ret, .returned none ret ∈ s.trace → ret < 0

lemma initial_inv (group notifyFd : ℕ) : Inv (initial group notifyFd) where
  notify := Int.natCast_nonneg _
  pids := by
    intro i j p q hp
    cases hp
  expected := nofun
  failed := nofun
  minds := by
    intro w v hv
    cases hv
  apart := by
    intro w w' v v' hv
    cases hv
  own := nofun
  past := nofun
  negative := nofun

/-! ## Children -/

/-- What a child may become. -/
structure Child.Kin (p q : Child) : Prop where
  pid : q.pid = p.pid
  stays : p.life = .reaped → q.life = .reaped

lemma Child.Kin.refl (p : Child) : p.Kin p := ⟨rfl, id⟩

section Steps

variable {s s' : State} {w c : ℕ} {v : Waiter} {p : Child}

/-- A waiter is waiting for the child. -/
def Minded (s : State) (c : ℕ) : Prop :=
  ∃ (w : ℕ) (v : Waiter), s.waiters[w]? = some v ∧ v.child = some c ∧ v.pc = .waiting

/-- Only children and the threads of other services change, and no waiter notices. -/
lemma Inv.children {cs : List Child} {os : List Other} (h : Inv s) (hpids : PidsDiffer cs)
    (hkin : ∀ (i : ℕ) (p : Child), s.children[i]? = some p →
      ∃ q : Child, cs[i]? = some q ∧ p.Kin q ∧ (Minded s i → q.life = .reaped → p.life = .reaped)) :
    Inv { s with children := cs, others := os } := by
  refine ⟨h.notify, hpids, ?_, h.failed, ?_, h.apart, h.own, h.past, h.negative⟩
  · intro ret pid c hmain
    obtain ⟨p, hp⟩ := h.expected ret pid c hmain
    obtain ⟨q, hq, hkin, -⟩ := hkin c p hp.there
    refine ⟨q, hp.ret, hq, ?_, ?_, hp.free⟩
    · rw [hkin.pid]
      exact hp.pid
    · rw [hkin.pid]
      exact hp.pos
  · intro w v hv
    obtain ⟨c, p, hp⟩ := h.minds w v hv
    obtain ⟨q, hq, hkin, hlife⟩ := hkin c p hp.there
    refine ⟨c, q, hp.child, hq, ?_, ?_, ?_, hp.notified, hp.fd⟩
    · rw [hkin.pid]
      exact hp.pid
    · rw [hkin.pid]
      exact hp.pos
    · constructor
      · intro hpc hreaped
        exact hp.life.mp hpc (hlife ⟨w, v, hv, hp.child, hpc⟩ hreaped)
      · intro hlive
        exact hp.life.mpr fun hreaped => hlive (hkin.stays hreaped)

/-- One child changes. -/
lemma PidsDiffer.set {cs : List Child} {i : ℕ} {q : Child} (h : PidsDiffer cs)
    (hp : cs[i]? = some p) (hpid : q.pid = p.pid) (hstays : p.life = .reaped → q.life = .reaped) :
    PidsDiffer (cs.set i q) := by
  have hold : ∀ (j : ℕ) (r : Child), (cs.set i q)[j]? = some r → r.life ≠ .reaped →
      ∃ r' : Child, cs[j]? = some r' ∧ r'.pid = r.pid ∧ r'.life ≠ .reaped := by
    intro j r hr hlife
    rw [List.getElem?_set] at hr
    split at hr
    case isTrue hij =>
      subst hij
      split at hr
      · rw [Option.some.injEq] at hr
        subst hr
        exact ⟨p, hp, hpid.symm, fun hl => hlife (hstays hl)⟩
      · cases hr
    case isFalse => exact ⟨r, hr, rfl, hlife⟩
  intro j k r t hr ht hrl htl heq
  obtain ⟨r', hr', hrpid, hrl'⟩ := hold j r hr hrl
  obtain ⟨t', ht', htpid, htl'⟩ := hold k t ht htl
  exact h j k r' t' hr' ht' hrl' htl' (by rw [hrpid, htpid, heq])

lemma kin_set {i : ℕ} {q : Child} (hp : s.children[i]? = some p) (hkin : p.Kin q)
    (hlife : Minded s i → q.life = .reaped → p.life = .reaped) :
    ∀ (j : ℕ) (r : Child), s.children[j]? = some r →
      ∃ r' : Child, (s.children.set i q)[j]? = some r' ∧ r.Kin r' ∧
        (Minded s j → r'.life = .reaped → r.life = .reaped) := by
  intro j r hr
  rw [List.getElem?_set]
  split
  case isTrue hij =>
    subst hij
    cases hp.symm.trans hr
    rw [if_pos (List.getElem?_eq_some_iff.mp hp).1]
    exact ⟨q, rfl, hkin, hlife⟩
  case isFalse => exact ⟨r, hr, .refl r, fun _ => id⟩

/-- A child is forked. -/
lemma PidsDiffer.append {cs : List Child} {q : Child} (h : PidsDiffer cs)
    (hfresh : ∀ p ∈ cs, p.life ≠ .reaped → p.pid ≠ q.pid) : PidsDiffer (cs ++ [q]) := by
  have hcase : ∀ (j : ℕ) (r : Child), (cs ++ [q])[j]? = some r →
      cs[j]? = some r ∨ j = cs.length ∧ r = q := by
    intro j r hr
    rw [List.getElem?_append] at hr
    split at hr
    · exact Or.inl hr
    case isFalse hlen =>
      rw [List.getElem?_singleton] at hr
      split at hr
      case isTrue hzero =>
        rw [Option.some.injEq] at hr
        exact Or.inr ⟨by omega, hr.symm⟩
      · cases hr
  intro j k r t hr ht hrl htl heq
  rcases hcase j r hr with hr | ⟨hj, hrq⟩
  · rcases hcase k t ht with ht | ⟨-, htq⟩
    · exact h j k r t hr ht hrl htl heq
    · exact absurd (heq.trans (congrArg Child.pid htq)) (hfresh r (List.mem_of_getElem? hr) hrl)
  · rcases hcase k t ht with ht | ⟨hk, -⟩
    · exact absurd (heq.symm.trans (congrArg Child.pid hrq))
        (hfresh t (List.mem_of_getElem? ht) htl)
    · rw [hj, hk]

lemma kin_append (q : Child) :
    ∀ (i : ℕ) (p : Child), s.children[i]? = some p →
      ∃ p' : Child, (s.children ++ [q])[i]? = some p' ∧ p.Kin p' ∧
        (Minded s i → p'.life = .reaped → p.life = .reaped) := by
  intro i p hp
  refine ⟨p, ?_, .refl p, fun _ => id⟩
  rw [List.getElem?_append_left (List.getElem?_eq_some_iff.mp hp).1]
  exact hp

lemma freshPid_iff {pid : ℕ} : freshPid pid s = true ↔
    0 < pid ∧ ∀ p ∈ s.children, p.life ≠ .reaped → p.pid ≠ pid := by
  rw [freshPid, Bool.and_eq_true, decide_eq_true_iff, List.all_eq_true]
  apply and_congr_right
  intro _
  apply forall_congr'
  intro p
  rw [Bool.or_eq_true, decide_eq_true_iff, decide_eq_true_iff]
  constructor
  · intro h hp hlife
    exact (h hp).resolve_left hlife
  · intro h hp
    exact Decidable.or_iff_not_imp_left.mpr (h hp)

/-- A child changes by itself. -/
lemma changeChild_inv {i : ℕ} {test : Child → Bool} {f : Child → Child} (h : Inv s)
    (hf : ∀ p, test p = true → p.Kin (f p) ∧ ((f p).life = .reaped → p.life = .reaped))
    (hs : changeChild i test f s = .ok s') : Inv s' := by
  rw [changeChild] at hs
  split at hs
  · cases hs
  case h_2 p hp =>
    split at hs
    case isFalse => cases hs
    case isTrue htest =>
      rw [Except.ok.injEq] at hs
      subst hs
      obtain ⟨hkin, hlife⟩ := hf p htest
      exact h.children (h.pids.set hp hkin.pid hkin.stays) (kin_set hp hkin fun _ => hlife)

/-- Nobody notices that a child is forked. -/
lemma Inv.fork (h : Inv s) {q : Child} {os : List Other} (hfresh : freshPid q.pid s = true) :
    Inv { s with children := s.children ++ [q], others := os } :=
  h.children (h.pids.append (freshPid_iff.mp hfresh).2) (kin_append q)

/-! ## The main thread -/

lemma createSubprocess_inv {r : Creation} (h : Inv s) (hs : createSubprocess r s = .ok s') :
    Inv s' := by
  have hfail : ∀ pid, Inv { s with main := .created (-1) pid none } := by
    intro pid
    refine ⟨h.notify, h.pids, nofun, ?_, ?_, h.apart, h.own, h.past, h.negative⟩
    · intro ret pid' heq
      rw [MainPc.created.injEq] at heq
      omega
    · intro w v hv
      obtain ⟨c, p, hp⟩ := h.minds w v hv
      exact ⟨c, p, hp.child, hp.there, hp.pid, hp.pos, hp.life, hp.notified, hp.fd⟩
  cases r with
  | noPtmx =>
    cases hs
    exact hfail 0
  | noPty =>
    cases hs
    exact hfail 0
  | noFork =>
    cases hs
    exact hfail (-1)
  | forked ptm pid =>
    rw [createSubprocess] at hs
    split at hs
    case isFalse => cases hs
    case isTrue hfresh =>
      rw [Except.ok.injEq] at hs
      subst hs
      have hfork := @Inv.fork _ h { pid := pid, pgid := s.group, shell := true } s.others hfresh
      refine ⟨h.notify, hfork.pids, ?_, nofun, ?_, h.apart, h.own, h.past, h.negative⟩
      · intro ret pid' c heq
        rw [MainPc.created.injEq, Option.some.injEq] at heq
        obtain ⟨rfl, rfl, rfl⟩ := heq
        refine ⟨_, Int.natCast_nonneg _, List.getElem?_concat_length .., rfl,
          (freshPid_iff.mp hfresh).1, ?_⟩
        intro w v hv hchild
        obtain ⟨c, p, hp⟩ := h.minds w v hv
        rw [hp.child, Option.some.injEq] at hchild
        have hlt := (List.getElem?_eq_some_iff.mp hp.there).1
        omega
      · intro w v hv
        obtain ⟨c, p, hp⟩ := hfork.minds w v hv
        exact ⟨c, p, hp.child, hp.there, hp.pid, hp.pos, hp.life, hp.notified, hp.fd⟩

lemma getElem?_concat_cases {α : Type} {l : List α} {a b : α} {i : ℕ}
    (h : (l ++ [a])[i]? = some b) : l[i]? = some b ∨ i = l.length ∧ b = a := by
  rw [List.getElem?_append] at h
  split at h
  · exact Or.inl h
  case isFalse hlen =>
    rw [List.getElem?_singleton] at h
    split at h
    case isTrue hzero =>
      rw [Option.some.injEq] at h
      exact Or.inr ⟨by omega, h.symm⟩
    · cases h

/-- Something is observed that says nothing about waiters that are there. -/
lemma Minds.observe {o : Obs} (h : Minds s w v c p) (ho : ∀ fd, o ≠ .notified w fd) :
    notifications w (o :: s.trace) = (if v.pc = .ended then [v.fd] else []) ∧
      .returned v.child v.fd ∈ o :: s.trace :=
  ⟨(notifications_cons_of_ne ho).trans h.notified, List.mem_cons_of_mem _ h.fd⟩

lemma createSubprocThread_inv {ok : Bool} (h : Inv s) (hstray : ¬Stray (.thread ok) s)
    (hs : createSubprocThread ok s = .ok s') : Inv s' := by
  rw [createSubprocThread] at hs
  split at hs
  · cases hs
  case h_2 retFd pid child hmain =>
    cases ok with
    | false =>
      rw [if_neg Bool.false_ne_true, Except.ok.injEq] at hs
      subst hs
      refine ⟨h.notify, h.pids, nofun, nofun, ?_, h.apart, ?_, ?_, ?_⟩
      · intro w v hv
        obtain ⟨c, p, hp⟩ := h.minds w v hv
        obtain ⟨hnotes, hfd⟩ := hp.observe (o := .returned child (-1)) nofun
        exact ⟨c, p, hp.child, hp.there, hp.pid, hp.pos, hp.life, hnotes, hfd⟩
      · intro w c hmem
        rcases List.mem_cons.mp hmem with heq | hmem
        · cases heq
        · exact h.own w c hmem
      · intro w fd hmem
        rcases List.mem_cons.mp hmem with heq | hmem
        · cases heq
        · exact h.past w fd hmem
      · intro ret hmem
        rcases List.mem_cons.mp hmem with heq | hmem
        · rw [Obs.returned.injEq] at heq
          omega
        · exact h.negative ret hmem
    | true =>
      rw [if_pos rfl, Except.ok.injEq] at hs
      subst hs
      cases child with
      | none =>
        refine absurd (.inl ⟨rfl, retFd, pid, none, hmain, ?_⟩) hstray
        intro c hc
        cases hc
      | some c =>
        obtain ⟨p, hp⟩ := h.expected retFd pid c hmain
        have hlive : p.life ≠ .reaped := by
          intro hreaped
          refine hstray (.inl ⟨rfl, retFd, pid, some c, hmain, ?_⟩)
          rintro _ ⟨⟩
          exact ⟨p, hp.there, hreaped⟩
        refine ⟨h.notify, h.pids, nofun, nofun, ?_, ?_, ?_, ?_, ?_⟩
        · intro w v hv
          rcases getElem?_concat_cases hv with hv | ⟨rfl, rfl⟩
          · obtain ⟨c', p', hp'⟩ := h.minds w v hv
            obtain ⟨hnotes, hfd⟩ := hp'.observe (o := .returned (some c) retFd) nofun
            exact ⟨c', p', hp'.child, hp'.there, hp'.pid, hp'.pos, hp'.life, hnotes, hfd⟩
          · refine ⟨c, p, rfl, hp.there, hp.pid, hp.pos, iff_of_true rfl hlive, ?_,
              List.mem_cons_self⟩
            rw [if_neg nofun]
            apply notifications_eq_nil
            intro fd hmem
            rcases List.mem_cons.mp hmem with heq | hmem
            · cases heq
            · obtain ⟨v, hv⟩ := h.past _ fd hmem
              exact absurd (List.getElem?_eq_some_iff.mp hv).1 (Nat.lt_irrefl _)
        · intro w w' v v' hv hv' hchild
          rcases getElem?_concat_cases hv with hv | ⟨rfl, rfl⟩
          · rcases getElem?_concat_cases hv' with hv' | ⟨rfl, rfl⟩
            · exact h.apart w w' v v' hv hv' hchild
            · exact absurd hchild (hp.free w v hv)
          · rcases getElem?_concat_cases hv' with hv' | ⟨rfl, -⟩
            · exact absurd hchild.symm (hp.free w' v' hv')
            · rfl
        · intro w c' hmem
          rcases List.mem_cons.mp hmem with heq | hmem
          · cases heq
          · obtain ⟨v, hv, hchild⟩ := h.own w c' hmem
            exact ⟨v, List.getElem?_append_left (List.getElem?_eq_some_iff.mp hv).1 ▸ hv, hchild⟩
        · intro w fd hmem
          rcases List.mem_cons.mp hmem with heq | hmem
          · cases heq
          · obtain ⟨v, hv⟩ := h.past w fd hmem
            exact ⟨v, List.getElem?_append_left (List.getElem?_eq_some_iff.mp hv).1 ▸ hv⟩
        · intro ret hmem
          rcases List.mem_cons.mp hmem with heq | hmem
          · cases heq
          · exact h.negative ret hmem

/-! ## Waiters -/

/-- A positive pid stands for one child. -/
lemma waitedFor_unique {pid : Int} {q : Child} {c' : ℕ} (h : Inv s) (hp : s.children[c]? = some p)
    (hlive : p.life ≠ .reaped) (hpid : pid = p.pid) (hpos : 0 < p.pid)
    (hq : s.children[c']? = some q) (hwait : q.waitedFor s.group pid = true) : c' = c := by
  rw [Child.waitedFor, if_pos (by omega), Bool.and_eq_true, decide_eq_true_iff,
    decide_eq_true_iff] at hwait
  exact h.pids c' c q p hq hp hwait.1 hlive (by omega)

/-- What the waiters of the invariant are waiting for. -/
lemma Minds.waitedFor_iff (h : Inv s) (hm : Minds s w v c p) (hpc : v.pc = .waiting) {i : ℕ}
    {q : Child} (hq : s.children[i]? = some q) :
    q.waitedFor s.group v.pid = true ↔ i = c := by
  have hlive : p.life ≠ .reaped := hm.life.mp hpc
  constructor
  · exact waitedFor_unique h hm.there hlive hm.pid hm.pos hq
  · rintro rfl
    cases hm.there.symm.trans hq
    have hpos : 0 < v.pid := by
      have := hm.pos
      rw [hm.pid]
      omega
    rw [Child.waitedFor, if_pos hpos, Bool.and_eq_true, decide_eq_true_iff, decide_eq_true_iff]
    exact ⟨hlive, hm.pid.symm⟩

/-- `waitpid` in the hands of a waiter. -/
lemma Minds.waitpid_cases (h : Inv s) (hm : Minds s w v c p) (hpc : v.pc = .waiting)
    {r : WaitResult} {ret : Int} {cs : List Child} (hr : waitpid v.pid r s = .ok (ret, cs)) :
    r = .interrupted ∧ ret ≠ v.pid ∧ cs = s.children ∨
    r = .status c ∧ ret = v.pid ∧ cs = s.children.set c { p with life := .reaped } := by
  cases r with
  | interrupted =>
    rw [waitpid, Except.ok.injEq, Prod.mk.injEq] at hr
    refine Or.inl ⟨rfl, ?_, hr.2.symm⟩
    have := hm.pid
    omega
  | status i =>
    rw [waitpid] at hr
    split at hr
    · cases hr
    case h_2 q hq =>
      split at hr
      case isFalse => cases hr
      case isTrue hwait =>
        rw [Bool.and_eq_true] at hwait
        obtain rfl := (hm.waitedFor_iff h hpc hq).mp hwait.2
        cases hm.there.symm.trans hq
        rw [Except.ok.injEq, Prod.mk.injEq] at hr
        exact Or.inr ⟨rfl, hr.1.symm.trans hm.pid.symm, hr.2.symm⟩
  | noChild =>
    rw [waitpid] at hr
    split at hr
    · cases hr
    case isFalse hnone =>
      refine absurd ?_ hnone
      rw [List.any_eq_true]
      exact ⟨p, List.mem_of_getElem? hm.there, (hm.waitedFor_iff h hpc hm.there).mpr rfl⟩

/-- A waiter changes. -/
lemma getElem?_set_cases {α : Type} {l : List α} {a b : α} {i j : ℕ}
    (h : (l.set i a)[j]? = some b) : j ≠ i ∧ l[j]? = some b ∨ j = i ∧ b = a := by
  rw [List.getElem?_set] at h
  split at h
  case isTrue hij =>
    split at h
    · exact Or.inr ⟨hij.symm, (Option.some.inj h).symm⟩
    · cases h
  case isFalse hij => exact Or.inl ⟨fun heq => hij heq.symm, h⟩

lemma exists_getElem?_set {α : Type} {l : List α} {a b : α} {i j : ℕ} (h : l[j]? = some b) :
    ∃ b', (l.set i a)[j]? = some b' := by
  rw [List.getElem?_set]
  split
  · have hlt := (List.getElem?_eq_some_iff.mp h).1
    rw [if_pos (by omega)]
    exact ⟨a, rfl⟩
  · exact ⟨b, h⟩

/-- A waiter goes on to another place, and what is observed is about it and its child. -/
lemma Inv.moveWaiter {pc : WaiterPc} {o : Obs} {cs : List Child} (h : Inv s)
    (hv : s.waiters[w]? = some v) (hm : Minds s w v c p) (hpids : PidsDiffer cs)
    (hcs : ∀ i, c ≠ i → cs[i]? = s.children[i]?) (hnote : ∀ w' fd, o = .notified w' fd → w' = w)
    (hreap : ∀ w' c', o = .reaped w' c' → w' = w ∧ c' = c) (hret : ∀ d ret, o ≠ .returned d ret)
    (hq : ∃ q, Minds { s with
      children := cs
      waiters := s.waiters.set w { v with pc := pc }
      trace := o :: s.trace } w { v with pc := pc } c q) :
    Inv { s with
      children := cs
      waiters := s.waiters.set w { v with pc := pc }
      trace := o :: s.trace } := by
  -- nobody else has to do with the child
  have hother : ∀ (w' : ℕ) (v' : Waiter) (c' : ℕ), w' ≠ w → s.waiters[w']? = some v' →
      v'.child = some c' → c ≠ c' := by
    rintro w' v' c' hne hv' hchild rfl
    exact hne (h.apart w' w v' v hv' hv (hchild.trans hm.child.symm))
  have hback : ∀ (w' : ℕ) (v' : Waiter), (s.waiters.set w { v with pc := pc })[w']? = some v' →
      ∃ u : Waiter, s.waiters[w']? = some u ∧ v'.child = u.child := by
    intro w' v' hv'
    rcases getElem?_set_cases hv' with ⟨-, hv'⟩ | ⟨rfl, rfl⟩
    · exact ⟨v', hv', rfl⟩
    · exact ⟨v, hv, rfl⟩
  refine ⟨h.notify, hpids, ?_, h.failed, ?_, ?_, ?_, ?_, ?_⟩
  · intro ret pid c' hmain
    obtain ⟨q, hq⟩ := h.expected ret pid c' hmain
    have hcc : c ≠ c' := by
      rintro rfl
      exact hq.free w v hv hm.child
    refine ⟨q, hq.ret, (hcs c' hcc).trans hq.there, hq.pid, hq.pos, ?_⟩
    intro w' v' hv'
    obtain ⟨u, hu, hsame⟩ := hback w' v' hv'
    rw [hsame]
    exact hq.free w' u hu
  · intro w' v' hv'
    rcases getElem?_set_cases hv' with ⟨hne, hv'⟩ | ⟨rfl, rfl⟩
    · obtain ⟨c', q, hq⟩ := h.minds w' v' hv'
      obtain ⟨hnotes, hfd⟩ := hq.observe fun fd heq => hne (hnote w' fd heq)
      exact ⟨c', q, hq.child, (hcs c' (hother w' v' c' hne hv' hq.child)).trans hq.there, hq.pid,
        hq.pos, hq.life, hnotes, hfd⟩
    · exact ⟨c, hq⟩
  · intro w₁ w₂ v₁ v₂ h₁ h₂ heq
    obtain ⟨u₁, hu₁, hsame₁⟩ := hback w₁ v₁ h₁
    obtain ⟨u₂, hu₂, hsame₂⟩ := hback w₂ v₂ h₂
    exact h.apart w₁ w₂ u₁ u₂ hu₁ hu₂ (by rw [← hsame₁, ← hsame₂, heq])
  · intro w' c' hmem
    have hold : ∃ v' : Waiter, s.waiters[w']? = some v' ∧ v'.child = some c' := by
      rcases List.mem_cons.mp hmem with heq | hmem
      · obtain ⟨rfl, rfl⟩ := hreap w' c' heq.symm
        exact ⟨v, hv, hm.child⟩
      · exact h.own w' c' hmem
    obtain ⟨v', hv', hc'⟩ := hold
    obtain ⟨b, hb⟩ := exists_getElem?_set (i := w) (a := { v with pc := pc }) hv'
    obtain ⟨u, hu, hsame⟩ := hback w' b hb
    cases hu.symm.trans hv'
    exact ⟨b, hb, hsame.trans hc'⟩
  · intro w' fd hmem
    have hold : ∃ v' : Waiter, s.waiters[w']? = some v' := by
      rcases List.mem_cons.mp hmem with heq | hmem
      · exact ⟨v, hnote w' fd heq.symm ▸ hv⟩
      · exact h.past w' fd hmem
    obtain ⟨v', hv'⟩ := hold
    exact exists_getElem?_set hv'
  · intro ret hmem
    rcases List.mem_cons.mp hmem with heq | hmem
    · exact absurd heq.symm (hret none ret)
    · exact h.negative ret hmem

lemma waiterRound_inv {r : WaitResult} (h : Inv s) (hs : waiterRound w r s = .ok s') : Inv s' := by
  rw [waiterRound] at hs
  split at hs
  · cases hs
  case h_2 v hv =>
    split at hs
    case isFalse => cases hs
    case isTrue hpc =>
      split at hs
      · cases hs
      case h_2 ret cs hr =>
        rw [Except.ok.injEq] at hs
        obtain ⟨c, p, hm⟩ := h.minds w v hv
        rcases hm.waitpid_cases h hpc hr with ⟨rfl, hne, rfl⟩ | ⟨rfl, heq, rfl⟩
        · rw [if_neg hne] at hs
          exact hs ▸ h
        · rw [if_pos heq] at hs
          subst hs
          have hpids : PidsDiffer (s.children.set c { p with life := .reaped }) :=
            h.pids.set hm.there rfl fun _ => rfl
          refine h.moveWaiter hv hm hpids (fun i hi => List.getElem?_set_ne hi) nofun ?_ nofun ?_
          · intro w' c' heq
            cases heq
            exact ⟨rfl, rfl⟩
          · obtain ⟨hnotes, hfd⟩ := hm.observe (o := .reaped w c) nofun
            refine ⟨{ p with life := .reaped }, hm.child, ?_, hm.pid, hm.pos,
              iff_of_false nofun fun hne => hne rfl, ?_, hfd⟩
            · exact List.getElem?_set_self (List.getElem?_eq_some_iff.mp hm.there).1
            · refine hnotes.trans ?_
              rw [hpc]
              rfl

lemma waiterNotify_inv (h : Inv s) (hs : waiterNotify w s = .ok s') : Inv s' := by
  rw [waiterNotify] at hs
  split at hs
  · cases hs
  case h_2 v hv =>
    split at hs
    case isFalse => cases hs
    case isTrue hpc =>
      rw [if_pos h.notify, Except.ok.injEq] at hs
      subst hs
      obtain ⟨c, p, hm⟩ := h.minds w v hv
      have hreaped : ¬p.life ≠ .reaped := by
        rw [← hm.life, hpc]
        nofun
      refine h.moveWaiter hv hm h.pids (fun _ _ => rfl) ?_ nofun nofun ?_
      · intro w' fd heq
        cases heq
        rfl
      · refine ⟨p, hm.child, hm.there, hm.pid, hm.pos, iff_of_false nofun hreaped, ?_,
          List.mem_cons_of_mem _ hm.fd⟩
        have hnone : notifications w s.trace = [] := by
          rw [hm.notified, hpc]
          rfl
        show notifications w (.notified w v.fd :: s.trace) = [v.fd]
        rw [notifications_cons_self, hnone]

/-! ## Other services -/

lemma otherFork_inv {k : OtherKind} {r : Option ℕ} (h : Inv s) (hs : otherFork k r s = .ok s') :
    Inv s' := by
  cases r with
  | some pid =>
    rw [otherFork] at hs
    split at hs
    case isTrue hfresh =>
      rw [Except.ok.injEq] at hs
      subst hs
      exact h.fork hfresh
    case isFalse => cases hs
  | none =>
    cases k with
    | reboot =>
      cases hs
      exact h
    | framebuffer =>
      cases hs
      exact h.children h.pids fun i p hp => ⟨p, hp, .refl p, fun _ => id⟩

/-- How `waitpid` returns to a thread, whatever it has asked for. -/
lemma waitpid_ok {pid ret : Int} {r : WaitResult} {cs : List Child}
    (h : waitpid pid r s = .ok (ret, cs)) : cs = s.children ∨ ∃ c, r = .status c := by
  cases r with
  | interrupted =>
    cases h
    exact .inl rfl
  | status c => exact .inr ⟨c, rfl⟩
  | noChild =>
    rw [waitpid] at h
    split at h
    · cases h
    · cases h
      exact .inl rfl

/-- A status is that of a child that was waited for. -/
lemma waitpid_status {pid ret : Int} {cs : List Child}
    (h : waitpid pid (.status c) s = .ok (ret, cs)) :
    ∃ p : Child, s.children[c]? = some p ∧ p.life = .zombie ∧ p.waitedFor s.group pid = true ∧
      cs = s.children.set c { p with life := .reaped } := by
  rw [waitpid] at h
  split at h
  · cases h
  case h_2 p hp =>
    split at h
    case isFalse => cases h
    case isTrue hwait =>
      rw [Bool.and_eq_true, decide_eq_true_iff] at hwait
      cases h
      exact ⟨p, hp, hwait.1, hwait.2, rfl⟩

/-- What a wait of another service comes to. -/
lemma otherWait_ok {o : ℕ} {r : WaitResult} (hs : otherWait o r s = .ok s') :
    ∃ t ret cs, s.others[o]? = some t ∧ t.waiting = true ∧ waitpid t.pid r s = .ok (ret, cs) ∧
      s' = { s with
        children := cs
        others := if r = .interrupted ∧ t.kind = .framebuffer then s.others
          else s.others.set o { t with waiting := false } } := by
  rw [otherWait] at hs
  split at hs
  · cases hs
  case h_2 t ht =>
    split at hs
    case isFalse => cases hs
    case isTrue hwaiting =>
      split at hs
      · cases hs
      case h_2 ret cs hr =>
        cases hs
        exact ⟨t, ret, cs, ht, hwaiting, hr, rfl⟩

lemma otherWait_inv {o : ℕ} {r : WaitResult} (h : Inv s) (hstray : ¬Stray (.otherWait o r) s)
    (hs : otherWait o r s = .ok s') : Inv s' := by
  obtain ⟨t, ret, cs, -, -, hr, hs'⟩ := otherWait_ok hs
  rcases waitpid_ok hr with rfl | ⟨c, rfl⟩
  · rw [hs']
    exact h.children h.pids fun i p hp => ⟨p, hp, .refl p, fun _ => id⟩
  · obtain ⟨p, hp, -, -, rfl⟩ := waitpid_status hr
    have hkin : p.Kin { p with life := .reaped } := ⟨rfl, fun _ => rfl⟩
    have hfree : ¬Minded s c := by
      rintro ⟨w, v, hv, hchild, hpc⟩
      exact hstray (.inr ⟨o, c, w, v, rfl, hv, hchild, hpc, s', hs⟩)
    rw [hs']
    exact h.children (h.pids.set hp rfl fun _ => rfl)
      (kin_set hp hkin fun hminded => absurd hminded hfree)

/-! ## Runs -/

lemma step_inv {m : Move} (h : Inv s) (hstray : ¬Stray m s) (hs : step m s = .ok s') : Inv s' := by
  cases m with
  | create r =>
    rw [step] at hs
    split at hs
    · exact createSubprocess_inv h hs
    · cases hs
  | thread ok => exact createSubprocThread_inv h hstray hs
  | round w r => exact waiterRound_inv h hs
  | notify w => exact waiterNotify_inv h hs
  | setsid i =>
    refine changeChild_inv h (fun p _ => ?_) hs
    exact ⟨⟨rfl, id⟩, id⟩
  | exit i =>
    refine changeChild_inv h (fun p hp => ?_) hs
    rw [decide_eq_true_iff] at hp
    refine ⟨⟨rfl, fun hreaped => ?_⟩, fun hreaped => ?_⟩
    · cases hp.symm.trans hreaped
    · cases hreaped
  | otherFork k r => exact otherFork_inv h hs
  | otherWait o r => exact otherWait_inv h hstray hs

/-- A waiter that can go on in the end has a child whose status nobody has taken. -/
lemma Ends.not_gone (h : Ends s w v c) (hpc : v.pc = .waiting) : ¬Gone s c := by
  rintro ⟨p, hp, hreaped⟩
  obtain ⟨s', hs, -⟩ := h.wakes hpc
  rw [step, waiterRound] at hs
  split at hs
  · cases hs
  split at hs
  case isFalse => cases hs
  rw [waitpid, hp] at hs
  dsimp only at hs
  rw [hreaped] at hs
  cases hs

lemma pcOf_set {x : Waiter} {cs : List Child} {tr : List Obs} (hv : s.waiters[w]? = some v) :
    State.pcOf w { s with children := cs, waiters := s.waiters.set w x, trace := tr } =
      some x.pc := by
  rw [State.pcOf]
  show ((s.waiters.set w x)[w]?).map (·.pc) = _
  rw [List.getElem?_set_self (List.getElem?_eq_some_iff.mp hv).1]
  rfl

/-- A waiter is not held up. -/
lemma Inv.ends (h : Inv s) (hv : s.waiters[w]? = some v) (hc : v.child = some c)
    (hp : s.children[c]? = some p) (hlife : p.life ≠ .running) : Ends s w v c := by
  obtain ⟨c', q, hm⟩ := h.minds w v hv
  cases hc.symm.trans hm.child
  cases hp.symm.trans hm.there
  refine ⟨?_, ?_, ?_⟩
  · intro hpc
    have hzombie : p.life = .zombie := by
      have hlive := hm.life.mp hpc
      cases hl : p.life with
      | running => exact absurd hl hlife
      | zombie => rfl
      | reaped => exact absurd hl hlive
    have hwait : waitpid v.pid (.status c) s =
        .ok (v.pid, s.children.set c { p with life := .reaped }) := by
      rw [waitpid, hp]
      dsimp only
      rw [hzombie, (hm.waitedFor_iff h hpc hp).mpr rfl, ← hm.pid]
      rfl
    apply Outcome.exists_ok
    rw [step, waiterRound, hv]
    dsimp only
    rw [if_pos hpc, hwait]
    dsimp only
    rw [if_pos rfl]
    exact pcOf_set hv
  · intro r s' hs
    rw [step, waiterRound, hv] at hs
    dsimp only at hs
    split at hs
    case isFalse => cases hs
    case isTrue hpc =>
      split at hs
      · cases hs
      case h_2 ret cs hr =>
        rcases hm.waitpid_cases h hpc hr with ⟨hi, -, -⟩ | ⟨hst, -, -⟩
        · exact Or.inl hi
        · exact Or.inr hst
  · intro hpc
    apply Outcome.exists_ok
    rw [step, waiterNotify, hv]
    dsimp only
    rw [if_pos hpc]
    exact pcOf_set hv

lemma Inv.faithful (h : Inv s) : Faithful s := by
  refine ⟨h.own, ?_, ?_, ?_, h.negative, ?_⟩
  · rintro w v c hv hc ⟨p, hp, hlife⟩
    exact h.ends hv hc hp hlife
  · intro w v hv
    obtain ⟨c, p, hm⟩ := h.minds w v hv
    exact hm.notified
  · intro w v hv
    obtain ⟨c, p, hm⟩ := h.minds w v hv
    exact hm.fd
  · intro w v hv
    obtain ⟨c, p, hm⟩ := h.minds w v hv
    rw [hm.child]
    nofun

/-- A waiter without a child breaks the property as soon as it is started. -/
lemma StartsAlone.not_faithful {m : Move} (h : StartsAlone m s) (hs : step m s = .ok s') :
    ¬Faithful s' := by
  obtain ⟨rfl, ret, pid, child, hmain, hgone⟩ := h
  rw [step, createSubprocThread, hmain] at hs
  dsimp only at hs
  rw [if_pos rfl, Except.ok.injEq] at hs
  subst hs
  intro hfaithful
  have hlast := List.getElem?_concat_length (l := s.waiters)
    (a := { fd := ret, pid := pid, child := child })
  cases child with
  | none => exact hfaithful.started _ _ hlast rfl
  | some c =>
    obtain ⟨p, hp, hreaped⟩ := hgone c rfl
    have hlife : p.life ≠ .running := by
      rw [hreaped]
      decide
    exact (hfaithful.ends _ _ c hlast rfl ⟨p, hp, hlife⟩).not_gone rfl ⟨p, hp, hreaped⟩

/-- So does a wait that takes a child's status from the waiter for it. -/
lemma TakesAway.not_faithful {m : Move} (h : TakesAway m s) (hs : step m s = .ok s') :
    ¬Faithful s' := by
  obtain ⟨o, c, w, v, rfl, hv, hchild, hpc, -⟩ := h
  obtain ⟨t, ret, cs, -, -, hr, rfl⟩ := otherWait_ok hs
  intro hfaithful
  have hgone : ∃ p : Child, cs[c]? = some p ∧ p.life = .reaped := by
    obtain ⟨p, hp, -, -, rfl⟩ := waitpid_status hr
    refine ⟨{ p with life := .reaped }, ?_, rfl⟩
    exact List.getElem?_set_self (List.getElem?_eq_some_iff.mp hp).1
  obtain ⟨p, hp, hreaped⟩ := hgone
  have hlife : p.life ≠ .running := by
    rw [hreaped]
    decide
  exact (hfaithful.ends w v c hv hchild ⟨p, hp, hlife⟩).not_gone hpc ⟨p, hp, hreaped⟩

lemma not_faithful_of_stray {m : Move} (hstray : Stray m s) :
    ∃ s', step m s = .ok s' ∧ ¬Faithful s' := by
  rcases hstray with hstart | htake
  · have henabled : ∃ s', step m s = .ok s' := by
      obtain ⟨rfl, ret, pid, child, hmain, -⟩ := hstart
      rw [step, createSubprocThread, hmain]
      exact ⟨_, rfl⟩
    obtain ⟨s', hs⟩ := henabled
    exact ⟨s', hs, hstart.not_faithful hs⟩
  · obtain ⟨o, c, w, v, -, -, -, -, s', hs⟩ := id htake
    exact ⟨s', hs, htake.not_faithful hs⟩

/-- In a run, shell waiters stay with their own child in every state that is reached, exactly if
no step starts a waiter for a child that was not forked or whose status has been taken, and no
other service takes the status of a child that a waiter is waiting for. -/
theorem faithful_iff (group notifyFd : ℕ) (ms : List Move) :
    Along step (fun m s => ∀ s', step m s = .ok s' → Faithful s') ms (initial group notifyFd) ↔
      Along step (fun m s => ¬Stray m s) ms (initial group notifyFd) := by
  constructor
  · apply Along.mono
    intro m s hfaithful hstray
    obtain ⟨s', hs, hnot⟩ := not_faithful_of_stray hstray
    exact hnot (hfaithful s' hs)
  · have hkeep : ∀ m s s', Inv s → ¬Stray m s → step m s = .ok s' → Inv s' :=
      fun m s s' h hstray hs => step_inv h hstray hs
    apply Along.of_invariant hkeep
    · intro m s h hstray s' hs
      exact (hkeep m s s' h hstray hs).faithful
    · exact initial_inv group notifyFd

/-- A shell is running when `fork` fails for another one: the stray waiter, whose pid is −1, takes
the status of the first one's child. -/
theorem not_faithful_stray : ∃ s, run step [.create (.forked 9 100), .thread true, .create .noFork,
    .thread true, .exit 0, .round 1 (.status 0)] (initial 50 20) = .ok s ∧ ¬Faithful s := by
  apply Outcome.exists_ok
  intro hfaithful
  obtain ⟨v, hv, hchild⟩ := hfaithful.own 1 0 List.mem_cons_self
  cases hv
  cases hchild

/-! ## Services that can fork -/

/-- No waiter is started for a shell that could not be forked, and `framebuffer_service` gets its
pipe and its child. -/
def Forks (m : Move) (s : State) : Prop :=
  ¬(m = .thread true ∧ ∃ ret pid, s.main = .created ret pid none) ∧
    m ≠ .otherFork .framebuffer none

/-- The thread of another service is waiting for its own child. -/
structure Tends (s : State) (t : Other) (c : ℕ) (p : Child) : Prop where
  there : s.children[c]? = some p
  pid : t.pid = p.pid
  pos : 0 < p.pid
  shell : p.shell = false
  life : p.life ≠ .reaped

/-- Nobody but its waiter takes the status of a shell's child, and every other service has a child
of its own to wait for. -/
structure Served (s : State) : Prop where
  inv : Inv s
  expected : ∀ (ret pid : Int) (c : ℕ) (p : Child), s.main = .created ret pid (some c) →
    s.children[c]? = some p → p.shell = true ∧ p.life ≠ .reaped
  minded : ∀ (w : ℕ) (v : Waiter) (c : ℕ) (p : Child), s.waiters[w]? = some v →
    v.child = some c → s.children[c]? = some p → p.shell = true
  tends : ∀ (o : ℕ) (t : Other), s.others[o]? = some t → t.waiting = true → ∃ c p, Tends s t c p
  alone : ∀ (o o' : ℕ) (t t' : Other), s.others[o]? = some t → s.others[o']? = some t' →
    t.waiting = true → t'.waiting = true → t.pid = t'.pid → o = o'

/-- Then the step does not take a child away. -/
lemma Served.not_stray {m : Move} (h : Served s) (hforks : Forks m s) : ¬Stray m s := by
  rintro (⟨rfl, ret, pid, child, hmain, hgone⟩ | ⟨o, c, w, v, rfl, hv, hchild, -, s', hs⟩)
  · cases child with
    | none => exact hforks.1 ⟨rfl, ret, pid, hmain⟩
    | some c =>
      obtain ⟨p, hp, hreaped⟩ := hgone c rfl
      exact (h.expected ret pid c p hmain hp).2 hreaped
  · obtain ⟨t, ret, cs, ht, hwaiting, hr, -⟩ := otherWait_ok hs
    obtain ⟨c', q, hq⟩ := h.tends o t ht hwaiting
    rcases waitpid_status hr with ⟨p, hp, hzombie, hwait, -⟩
    have hc : c = c' := waitedFor_unique h.inv hq.there hq.life hq.pid hq.pos hp hwait
    subst hc
    have hshell := h.minded w v c q hv hchild hq.there
    rw [hq.shell] at hshell
    cases hshell

/-- What a step has to keep: `taken` are the children whose status it has taken. -/
lemma Served.keep {taken : ℕ → Prop} (h : Served s) (hinv : Inv s')
    (hkept : ∀ (c : ℕ) (p : Child), s.children[c]? = some p →
      ∃ q : Child, s'.children[c]? = some q ∧ q.pid = p.pid ∧ q.shell = p.shell ∧
        (q.life = .reaped → p.life = .reaped ∨ taken c))
    (hmain : ∀ ret pid c, s'.main = .created ret pid (some c) →
      s.main = .created ret pid (some c) ∧ ¬taken c ∨
        ∃ p : Child, s'.children[c]? = some p ∧ p.shell = true ∧ p.life ≠ .reaped)
    (hwaiters : ∀ (w : ℕ) (v : Waiter) (c : ℕ), s'.waiters[w]? = some v → v.child = some c →
      (∃ (w : ℕ) (u : Waiter), s.waiters[w]? = some u ∧ u.child = some c) ∨
        ∃ ret pid, s.main = .created ret pid (some c))
    (hothers : ∀ (o : ℕ) (t : Other), s'.others[o]? = some t → t.waiting = true →
      s.others[o]? = some t ∧ ∀ c p, Tends s t c p → ¬taken c) : Served s' := by
  refine ⟨hinv, ?_, ?_, ?_, ?_⟩
  · intro ret pid c q hcreated hq
    rcases hmain ret pid c hcreated with ⟨hold, hfree⟩ | ⟨p, hp, hshell, hlife⟩
    · obtain ⟨p, hp⟩ := h.inv.expected ret pid c hold
      obtain ⟨hshell, hlife⟩ := h.expected ret pid c p hold hp.there
      obtain ⟨q', hq', -, hsame, hreaped⟩ := hkept c p hp.there
      cases hq.symm.trans hq'
      exact ⟨hsame.trans hshell, fun hr => (hreaped hr).elim hlife hfree⟩
    · cases hq.symm.trans hp
      exact ⟨hshell, hlife⟩
  · intro w v c q hv hchild hq
    have hshell : ∃ p : Child, s.children[c]? = some p ∧ p.shell = true := by
      rcases hwaiters w v c hv hchild with ⟨w', u, hu, huc⟩ | ⟨ret, pid, hcreated⟩
      · obtain ⟨c', p, hm⟩ := h.inv.minds w' u hu
        cases huc.symm.trans hm.child
        exact ⟨p, hm.there, h.minded w' u c p hu huc hm.there⟩
      · obtain ⟨p, hp⟩ := h.inv.expected ret pid c hcreated
        exact ⟨p, hp.there, (h.expected ret pid c p hcreated hp.there).1⟩
    obtain ⟨p, hp, hshell⟩ := hshell
    obtain ⟨q', hq', -, hsame, -⟩ := hkept c p hp
    cases hq.symm.trans hq'
    exact hsame.trans hshell
  · intro o t ht hwaiting
    obtain ⟨hold, hfree⟩ := hothers o t ht hwaiting
    obtain ⟨c, p, hp⟩ := h.tends o t hold hwaiting
    obtain ⟨q, hq, hpid, hshell, hreaped⟩ := hkept c p hp.there
    refine ⟨c, q, hq, ?_, ?_, hshell.trans hp.shell, fun hr => ?_⟩
    · rw [hpid]
      exact hp.pid
    · rw [hpid]
      exact hp.pos
    · exact (hreaped hr).elim hp.life (hfree c p hp)
  · intro o o' t t' ht ht' hwaiting hwaiting' hpid
    exact h.alone o o' t t' (hothers o t ht hwaiting).1 (hothers o' t' ht' hwaiting').1 hwaiting
      hwaiting' hpid

/-- A child that is set to another one with its pid is the only one to change. -/
lemma kept_set {taken : ℕ → Prop} {i : ℕ} {q : Child} (hp : s.children[i]? = some p)
    (hpid : q.pid = p.pid) (hshell : q.shell = p.shell)
    (hlife : q.life = .reaped → p.life = .reaped ∨ taken i) :
    ∀ (c : ℕ) (p : Child), s.children[c]? = some p →
      ∃ q' : Child, (s.children.set i q)[c]? = some q' ∧ q'.pid = p.pid ∧ q'.shell = p.shell ∧
        (q'.life = .reaped → p.life = .reaped ∨ taken c) := by
  intro c r hr
  rw [List.getElem?_set]
  split
  case isTrue hic =>
    subst hic
    cases hp.symm.trans hr
    rw [if_pos (List.getElem?_eq_some_iff.mp hp).1]
    exact ⟨q, rfl, hpid, hshell, hlife⟩
  case isFalse => exact ⟨r, hr, rfl, rfl, .inl⟩

/-- A step of the main thread or of a waiter, or a child changes by itself. -/
lemma Served.own {taken : ℕ → Prop} (h : Served s) (hinv : Inv s')
    (hkept : ∀ (c : ℕ) (p : Child), s.children[c]? = some p →
      ∃ q : Child, s'.children[c]? = some q ∧ q.pid = p.pid ∧ q.shell = p.shell ∧
        (q.life = .reaped → p.life = .reaped ∨ taken c))
    (hmain : ∀ ret pid c, s'.main = .created ret pid (some c) →
      s.main = .created ret pid (some c) ∧ ¬taken c ∨
        ∃ p : Child, s'.children[c]? = some p ∧ p.shell = true ∧ p.life ≠ .reaped)
    (hwaiters : ∀ (w : ℕ) (v : Waiter) (c : ℕ), s'.waiters[w]? = some v → v.child = some c →
      (∃ (w : ℕ) (u : Waiter), s.waiters[w]? = some u ∧ u.child = some c) ∨
        ∃ ret pid, s.main = .created ret pid (some c))
    (hothers : s'.others = s.others)
    (hshells : ∀ (c : ℕ) (p : Child), taken c → s.children[c]? = some p → p.shell = true) :
    Served s' := by
  refine h.keep hinv hkept hmain hwaiters fun o t ht _ => ⟨hothers ▸ ht, fun c p hp htaken => ?_⟩
  have hshell := hshells c p htaken hp.there
  rw [hp.shell] at hshell
  cases hshell

lemma createSubprocess_served {r : Creation} (h : Served s) (hs : createSubprocess r s = .ok s') :
    Served s' := by
  have hinv := createSubprocess_inv h.inv hs
  have hfail : ∀ pid, s' = { s with main := .created (-1) pid none } → Served s' := by
    rintro pid rfl
    refine @Served.own _ _ (fun _ => False) h hinv (fun c p hp => ⟨p, hp, rfl, rfl, .inl⟩) ?_ ?_ rfl
      fun _ _ => False.elim
    · intro ret pid' c hcreated
      cases hcreated
    · exact fun w v c hv hchild => .inl ⟨w, v, hv, hchild⟩
  cases r with
  | noPtmx =>
    cases hs
    exact hfail 0 rfl
  | noPty =>
    cases hs
    exact hfail 0 rfl
  | noFork =>
    cases hs
    exact hfail (-1) rfl
  | forked ptm pid =>
    rw [createSubprocess] at hs
    split at hs
    case isFalse => cases hs
    case isTrue =>
      cases hs
      refine @Served.own _ _ (fun _ => False) h hinv ?_ ?_
        (fun w v c hv hchild => .inl ⟨w, v, hv, hchild⟩) rfl fun _ _ => False.elim
      · intro c p hp
        refine ⟨p, ?_, rfl, rfl, .inl⟩
        exact (List.getElem?_append_left (List.getElem?_eq_some_iff.mp hp).1).trans hp
      · intro ret pid' c hcreated
        cases hcreated
        exact .inr ⟨_, List.getElem?_concat_length .., rfl, fun hr => by cases hr⟩

lemma createSubprocThread_served {ok : Bool} (h : Served s) (hinv : Inv s')
    (hs : createSubprocThread ok s = .ok s') : Served s' := by
  rw [createSubprocThread] at hs
  split at hs
  · cases hs
  case h_2 retFd pid child hmain =>
    have hsame : ∀ (c : ℕ) (p : Child), s.children[c]? = some p → ∃ q : Child,
        s.children[c]? = some q ∧ q.pid = p.pid ∧ q.shell = p.shell ∧
          (q.life = .reaped → p.life = .reaped ∨ False) :=
      fun c p hp => ⟨p, hp, rfl, rfl, .inl⟩
    cases ok with
    | false =>
      cases hs
      refine @Served.own _ _ (fun _ => False) h hinv hsame ?_
        (fun w v c hv hchild => .inl ⟨w, v, hv, hchild⟩) rfl fun _ _ => False.elim
      intro ret pid' c hcreated
      cases hcreated
    | true =>
      cases hs
      refine @Served.own _ _ (fun _ => False) h hinv hsame ?_ ?_ rfl fun _ _ => False.elim
      · intro ret pid' c hcreated
        cases hcreated
      · intro w v c hv hchild
        rcases getElem?_concat_cases hv with hv | ⟨-, rfl⟩
        · exact .inl ⟨w, v, hv, hchild⟩
        · exact .inr ⟨retFd, pid, hmain.trans (congrArg _ hchild)⟩

/-- The waiter that goes on waits for the same child. -/
lemma waiters_set {x : Waiter} (hv : s.waiters[w]? = some v) (hx : x.child = v.child) :
    ∀ (w' : ℕ) (v' : Waiter) (c : ℕ), (s.waiters.set w x)[w']? = some v' → v'.child = some c →
      ∃ (w : ℕ) (u : Waiter), s.waiters[w]? = some u ∧ u.child = some c := by
  intro w' v' c hv' hchild
  rcases getElem?_set_cases hv' with ⟨-, hv'⟩ | ⟨-, rfl⟩
  · exact ⟨w', v', hv', hchild⟩
  · exact ⟨w, v, hv, hx.symm.trans hchild⟩

lemma waiterRound_served {r : WaitResult} (h : Served s) (hs : waiterRound w r s = .ok s') :
    Served s' := by
  have hinv := waiterRound_inv h.inv hs
  rw [waiterRound] at hs
  split at hs
  · cases hs
  case h_2 v hv =>
    split at hs
    case isFalse => cases hs
    case isTrue hpc =>
      split at hs
      · cases hs
      case h_2 ret cs hr =>
        rw [Except.ok.injEq] at hs
        obtain ⟨c, p, hm⟩ := h.inv.minds w v hv
        rcases hm.waitpid_cases h.inv hpc hr with ⟨rfl, hne, rfl⟩ | ⟨rfl, heq, rfl⟩
        · rw [if_neg hne] at hs
          exact hs ▸ h
        · rw [if_pos heq] at hs
          subst hs
          have hset := waiters_set hv (x := { v with pc := .exited }) rfl
          refine @Served.own _ _ (fun i => i = c) h hinv
            (kept_set hm.there rfl rfl fun _ => .inr rfl) ?_
            (fun w' v' i hv' hchild => .inl (hset w' v' i hv' hchild)) rfl ?_
          · intro ret' pid i hcreated
            refine .inl ⟨hcreated, fun hic => ?_⟩
            obtain ⟨q, hq⟩ := h.inv.expected ret' pid i hcreated
            exact hq.free w v hv (hic ▸ hm.child)
          · rintro i q rfl hq
            exact h.minded w v i q hv hm.child hq

lemma waiterNotify_served (h : Served s) (hs : waiterNotify w s = .ok s') : Served s' := by
  have hinv := waiterNotify_inv h.inv hs
  rw [waiterNotify] at hs
  split at hs
  · cases hs
  case h_2 v hv =>
    split at hs
    case isFalse => cases hs
    case isTrue =>
      rw [Except.ok.injEq] at hs
      subst hs
      have hset := waiters_set hv (x := { v with pc := .ended }) rfl
      exact @Served.own _ _ (fun _ => False) h hinv (fun c p hp => ⟨p, hp, rfl, rfl, .inl⟩)
        (fun ret pid c hcreated => .inl ⟨hcreated, id⟩)
        (fun w' v' i hv' hchild => .inl (hset w' v' i hv' hchild)) rfl
        fun _ _ => False.elim

lemma changeChild_served {i : ℕ} {test : Child → Bool} {f : Child → Child} (h : Served s)
    (hinv : Inv s') (hf : ∀ p, test p = true → (f p).pid = p.pid ∧ (f p).shell = p.shell ∧
      ((f p).life = .reaped → p.life = .reaped)) (hs : changeChild i test f s = .ok s') :
    Served s' := by
  rw [changeChild] at hs
  split at hs
  · cases hs
  case h_2 p hp =>
    split at hs
    case isFalse => cases hs
    case isTrue htest =>
      rw [Except.ok.injEq] at hs
      subst hs
      obtain ⟨hpid, hshell, hlife⟩ := hf p htest
      exact @Served.own _ _ (fun _ => False) h hinv
        (kept_set hp hpid hshell fun hr => .inl (hlife hr))
        (fun ret pid c hcreated => .inl ⟨hcreated, id⟩)
        (fun w v c hv hchild => .inl ⟨w, v, hv, hchild⟩) rfl fun _ _ => False.elim

/-- A child of another service comes with a thread that waits for it. -/
lemma otherFork_served {k : OtherKind} {r : Option ℕ} (h : Served s)
    (hforks : Forks (.otherFork k r) s) (hs : otherFork k r s = .ok s') : Served s' := by
  have hinv := otherFork_inv h.inv hs
  cases r with
  | none =>
    cases k with
    | reboot =>
      cases hs
      exact h
    | framebuffer => exact absurd rfl hforks.2
  | some pid =>
    rw [otherFork] at hs
    split at hs
    case isFalse => cases hs
    case isTrue hfresh =>
      rw [Except.ok.injEq] at hs
      subst hs
      obtain ⟨hpos, hnew⟩ := freshPid_iff.mp hfresh
      have hold : ∀ (c : ℕ) (p : Child), s.children[c]? = some p →
          (s.children ++ [{ pid := pid, pgid := s.group, shell := false }])[c]? = some p :=
        fun c p hp => (List.getElem?_append_left (List.getElem?_eq_some_iff.mp hp).1).trans hp
      have hlast : (s.children ++ [{ pid := pid, pgid := s.group, shell := false }])[
          s.children.length]? = some { pid := pid, pgid := s.group, shell := false } :=
        List.getElem?_concat_length ..
      -- its pid is that of no child that is waited for
      have hdiffer : ∀ (o : ℕ) (t : Other), s.others[o]? = some t → t.waiting = true →
          t.pid ≠ pid := by
        intro o t ht hwaiting heq
        obtain ⟨c, p, hp⟩ := h.tends o t ht hwaiting
        have hpid := hp.pid
        exact hnew p (List.mem_of_getElem? hp.there) hp.life (by omega)
      refine ⟨hinv, ?_, ?_, ?_, ?_⟩
      · intro ret pid' c p hcreated hp
        obtain ⟨q, hq⟩ := h.inv.expected ret pid' c hcreated
        cases hp.symm.trans (hold c q hq.there)
        exact h.expected ret pid' c p hcreated hq.there
      · intro w v c p hv hchild hp
        obtain ⟨c', q, hm⟩ := h.inv.minds w v hv
        cases hchild.symm.trans hm.child
        cases hp.symm.trans (hold c q hm.there)
        exact h.minded w v c p hv hchild hm.there
      · intro o t ht hwaiting
        rcases getElem?_concat_cases ht with ht | ⟨-, rfl⟩
        · obtain ⟨c, p, hp⟩ := h.tends o t ht hwaiting
          exact ⟨c, p, hold c p hp.there, hp.pid, hp.pos, hp.shell, hp.life⟩
        · exact ⟨_, _, hlast, rfl, hpos, rfl, fun hr => by cases hr⟩
      · intro o o' t t' ht ht' hwaiting hwaiting' hpid
        rcases getElem?_concat_cases ht with ht | ⟨rfl, rfl⟩
        · rcases getElem?_concat_cases ht' with ht' | ⟨rfl, rfl⟩
          · exact h.alone o o' t t' ht ht' hwaiting hwaiting' hpid
          · exact absurd hpid (hdiffer o t ht hwaiting)
        · rcases getElem?_concat_cases ht' with ht' | ⟨rfl, rfl⟩
          · exact absurd hpid.symm (hdiffer o' t' ht' hwaiting')
          · rfl

/-- A thread of another service waits in vain, or takes the status of its own child. -/
lemma otherWait_served {o : ℕ} {r : WaitResult} (h : Served s) (hinv : Inv s')
    (hs : otherWait o r s = .ok s') : Served s' := by
  obtain ⟨t, ret, cs, ht, hwaiting, hr, hs'⟩ := otherWait_ok hs
  -- the others go on waiting
  have hothers : ∀ (o' : ℕ) (t' : Other), s'.others[o']? = some t' → t'.waiting = true →
      s.others[o']? = some t' ∧ (r = .interrupted ∨ o' ≠ o) := by
    intro o' t' ht' hwaiting'
    subst hs'
    change (if r = .interrupted ∧ t.kind = .framebuffer then s.others
      else s.others.set o { t with waiting := false })[o']? = some t' at ht'
    split at ht'
    case isTrue hagain => exact ⟨ht', .inl hagain.1⟩
    case isFalse =>
      rcases getElem?_set_cases ht' with ⟨hne, ht'⟩ | ⟨-, rfl⟩
      · exact ⟨ht', .inr hne⟩
      · cases hwaiting'
  rcases waitpid_ok hr with rfl | ⟨c, rfl⟩
  · subst hs'
    exact @Served.keep _ _ (fun _ => False) h hinv (fun c p hp => ⟨p, hp, rfl, rfl, .inl⟩)
      (fun ret pid c hcreated => .inl ⟨hcreated, id⟩)
      (fun w v c hv hchild => .inl ⟨w, v, hv, hchild⟩)
      fun o' t' ht' hwaiting' => ⟨(hothers o' t' ht' hwaiting').1, fun _ _ _ => id⟩
  · obtain ⟨p, hp, -, hwait, rfl⟩ := waitpid_status hr
    obtain ⟨c', q, hq⟩ := h.tends o t ht hwaiting
    have hc : c = c' := waitedFor_unique h.inv hq.there hq.life hq.pid hq.pos hp hwait
    subst hc
    cases hp.symm.trans hq.there
    subst hs'
    refine @Served.keep _ _ (fun i => i = c) h hinv (kept_set hp rfl rfl fun _ => .inr rfl) ?_
      (fun w v i hv hchild => .inl ⟨w, v, hv, hchild⟩) ?_
    · intro ret' pid i hcreated
      refine .inl ⟨hcreated, ?_⟩
      rintro rfl
      have hshell := (h.expected ret' pid i p hcreated hp).1
      rw [hq.shell] at hshell
      cases hshell
    · intro o' t' ht' hwaiting'
      obtain ⟨hold, hcase⟩ := hothers o' t' ht' hwaiting'
      refine ⟨hold, ?_⟩
      rintro i q' hq' rfl
      cases hq'.there.symm.trans hp
      have hsame := h.alone o' o t' t hold ht hwaiting' hwaiting (hq'.pid.trans hq.pid.symm)
      rcases hcase with hintr | hne
      · cases hintr
      · exact hne hsame

lemma step_served {m : Move} (h : Served s) (hforks : Forks m s) (hs : step m s = .ok s') :
    Served s' := by
  have hinv := step_inv h.inv (h.not_stray hforks) hs
  cases m with
  | create r =>
    rw [step] at hs
    split at hs
    · exact createSubprocess_served h hs
    · cases hs
  | thread ok => exact createSubprocThread_served h hinv hs
  | round w r => exact waiterRound_served h hs
  | notify w => exact waiterNotify_served h hs
  | setsid i =>
    refine changeChild_served h hinv (fun p _ => ?_) hs
    exact ⟨rfl, rfl, id⟩
  | exit i =>
    refine changeChild_served h hinv (fun p _ => ?_) hs
    refine ⟨rfl, rfl, fun hr => ?_⟩
    cases hr
  | otherFork k r => exact otherFork_served h hforks hs
  | otherWait o r => exact otherWait_served h hinv hs

lemma initial_served (group notifyFd : ℕ) : Served (initial group notifyFd) := by
  refine ⟨initial_inv group notifyFd, ?_, ?_, ?_, ?_⟩
  · intro ret pid c p hcreated
    cases hcreated
  · intro w v c p hv
    cases hv
  · intro o t ht
    cases ht
  · intro o o' t t' ht
    cases ht

/-- Where `framebuffer_service` can fork, the only waiters that go astray are those of shells that
could not be forked. -/
theorem not_stray_of_forks (group notifyFd : ℕ) {ms : List Move}
    (h : Along step Forks ms (initial group notifyFd)) :
    Along step (fun m s => ¬Stray m s) ms (initial group notifyFd) :=
  Along.of_invariant (fun _ _ _ hserved hforks hs => step_served hserved hforks hs)
    (fun _ _ hserved hforks => hserved.not_stray hforks) (initial_served group notifyFd) h

/-- `framebuffer_service` has not got a pipe while a shell is running: its `waitpid` takes the
status of the shell's child, and the waiter for it never ends. -/
theorem not_faithful_screencap : ∃ s, run step [.create (.forked 9 100), .thread true,
    .otherFork .framebuffer none, .exit 0, .otherWait 0 (.status 0)] (initial 50 20) = .ok s ∧
      ¬Faithful s := by
  apply Outcome.exists_ok
  intro hfaithful
  have hends := hfaithful.ends 0 _ 0 rfl rfl ⟨_, rfl, by decide⟩
  exact hends.not_gone rfl ⟨_, rfl, rfl⟩

end Steps

end Subprocess

end Adbd
