import Adbd.Effects.Initial
import Adbd.Effects.Services

/-!
# Ids of local sockets (`sockets.c`, `jdwp_service.c`)

`install_local_socket` numbers the sockets from a 32-bit counter that starts at 1 and is never
compared with the ids in use.  As long as the number it is about to hand out is neither 0 nor
the id of a listed socket, the ids in `local_socket_list` stay distinct and non-zero and
`find_local_socket` finds the one socket that is meant; the first creation that does not meet
the condition breaks this.  Such a creation exists: the counter wraps.
-/

namespace Adbd

namespace SocketIds

open Function Transition Daemon

/-! ## Runs of creations and removals -/

/-- Creating a socket of one of the three kinds that `install_local_socket` is called for, and
taking a socket off its list. -/
inductive Op
  | createFd (fd : ℕ)
  | createJdwp
  | createTracker
  | remove (a : Addr)
  deriving DecidableEq, Repr

def Op.creates : Op → Bool
  | .remove _ => false
  | _ => true

def opStep : Op → Daemon → Except Stop Daemon
  | .createFd fd, D => do
    let (_, D) ← D.createLocalSocket fd
    pure D
  | .createJdwp, D => do
    let (_, D) ← D.createJdwpServiceSocket
    pure D
  | .createTracker, D => do
    let (_, D) ← D.createJdwpTrackerServiceSocket
    pure D
  | .remove a, D => D.removeSocket a

/-- The ids in `local_socket_list` are non-zero and distinct, and each of them finds its own
socket. -/
structure IdsUnique (D : Daemon) : Prop where
  nonzero : ∀ a ∈ D.localSocketList, ∀ s, D.sockets a = some s → s.id ≠ 0
  distinct : ∀ a ∈ D.localSocketList, ∀ b ∈ D.localSocketList, ∀ s q,
    D.sockets a = some s → D.sockets b = some q → s.id = q.id → a = b
  found : ∀ a ∈ D.localSocketList, ∀ s, D.sockets a = some s →
    D.findLocalSocket s.id = some a
  notFound : D.findLocalSocket 0 = none

/-- The id that the next socket gets is neither 0 nor in use. -/
def NextIdFree (D : Daemon) : Prop :=
  D.localSocketNextId ≠ 0 ∧
    ∀ a ∈ D.localSocketList, ∀ s, D.sockets a = some s → s.id ≠ D.localSocketNextId

/-- Addresses are handed out once, and the listed sockets are alive. -/
structure Listed (D : Daemon) : Prop where
  fresh : ∀ a s, D.sockets a = some s → a < D.nextAddr
  live : ∀ a ∈ D.localSocketList, ∃ s, D.sockets a = some s
  nodup : D.localSocketList.Nodup

variable {D D' : Daemon} {o : Op} {a : Addr}

/-! ## What one operation does -/

/-- A creation appends the next address with the next id. -/
lemma opStep_creates (hc : o.creates = true) (h : opStep o D = .ok D') : ∃ s : Asocket,
    D'.sockets = update D.sockets D.nextAddr (some { s with id := D.localSocketNextId }) ∧
    D'.nextAddr = D.nextAddr + 1 ∧ D'.localSocketNextId = D.localSocketNextId + 1 ∧
    D'.localSocketList = D.localSocketList ++ [D.nextAddr] := by
  cases o with
  | remove a => cases hc
  | createFd fd =>
    have hdef : opStep (.createFd fd) D =
        ((D.callocSocket { ops := .fd, fd := fd }).2.installLocalSocket D.nextAddr >>= fun D₁ =>
          D₁.onLoop (Loop.fdeventInstall (.socket D.nextAddr) fd) >>= fun D₂ =>
            pure D₂) := by
      simp only [opStep, createLocalSocket, bind_assoc, pure_bind]
      rfl
    rw [hdef, installLocalSocket_calloc, bind_eq_ok_iff] at h
    obtain ⟨D₁, hD₁, h⟩ := h
    cases hD₁
    rw [onLoop, bind_assoc, bind_eq_ok_iff] at h
    obtain ⟨L, -, h⟩ := h
    cases h
    exact ⟨{ ops := .fd, fd := fd }, rfl, rfl, rfl, rfl⟩
  | createJdwp =>
    have hdef : opStep .createJdwp D =
        ((D.callocSocket { ops := .jdwp }).2.installLocalSocket D.nextAddr >>= fun D₁ =>
          pure D₁) := by
      simp only [opStep, createJdwpServiceSocket, bind_assoc, pure_bind]
      rfl
    rw [hdef, installLocalSocket_calloc] at h
    cases h
    exact ⟨{ ops := .jdwp }, rfl, rfl, rfl, rfl⟩
  | createTracker =>
    simp only [opStep, createJdwpTrackerServiceSocket, bind_assoc, pure_bind] at h
    rw [bind_eq_ok_iff] at h
    obtain ⟨-, -, h⟩ := h
    set D₁ : Daemon := { D with jdwpTrackersList := D.jdwpTrackersList ++ [D.nextAddr] } with hD₁
    have hdef := installLocalSocket_calloc { ops := .tracker, needUpdate := true } D₁
    rw [bind_eq_ok_iff] at h
    obtain ⟨D₂, hD₂, h⟩ := h
    have heq := hdef.symm.trans hD₂
    cases heq
    cases h
    exact ⟨{ ops := .tracker, needUpdate := true }, rfl, rfl, rfl, rfl⟩

/-- A removal takes the socket off the list and touches no other. -/
lemma opStep_remove (h : opStep (.remove a) D = .ok D') :
    (∀ b, b ≠ a → D'.sockets b = D.sockets b) ∧ (∃ s, D'.sockets a = some s) ∧
    D'.nextAddr = D.nextAddr ∧ D'.localSocketNextId = D.localSocketNextId ∧
    D'.localSocketList = D.localSocketList.erase a ∧ ∃ s, D.sockets a = some s := by
  have hlive : ∃ s, D.sockets a = some s := by
    rw [opStep, removeSocket, bind_eq_ok_iff] at h
    obtain ⟨s, hs, -⟩ := h
    rw [deref] at hs
    cases hsock : D.sockets a with
    | none => rw [hsock] at hs; cases hs
    | some q => exact ⟨q, rfl⟩
  obtain ⟨s, hs⟩ := hlive
  obtain ⟨i, hi⟩ := removeSocket_eq hs
  cases hi.symm.trans h
  refine ⟨fun b hb => update_of_ne hb .., ⟨_, update_self ..⟩, rfl, rfl, rfl, s, hs⟩

lemma opStep_listed (h : Listed D) (hstep : opStep o D = .ok D') : Listed D' := by
  by_cases hc : o.creates = true
  · obtain ⟨s, hsock, haddr, -, hlist⟩ := opStep_creates hc hstep
    have hnew : D.nextAddr ∉ D.localSocketList := by
      intro hmem
      obtain ⟨q, hq⟩ := h.live _ hmem
      exact absurd (h.fresh _ q hq) (Nat.lt_irrefl _)
    refine ⟨?_, ?_, ?_⟩
    · intro b q hb
      rw [haddr]
      by_cases hbN : b = D.nextAddr
      · exact hbN ▸ Nat.lt_succ_self _
      · rw [hsock, update_of_ne hbN] at hb
        exact Nat.lt_succ_of_lt (h.fresh b q hb)
    · intro b hb
      rw [hlist, List.mem_append, List.mem_singleton] at hb
      rw [hsock]
      by_cases hbN : b = D.nextAddr
      · exact ⟨_, by rw [hbN, update_self]⟩
      · rw [update_of_ne hbN]
        exact h.live b (hb.resolve_right hbN)
    · rw [hlist]
      refine List.nodup_append.mpr ⟨h.nodup, List.pairwise_singleton _ _, ?_⟩
      intro b hb c hcN hbc
      rw [List.mem_singleton] at hcN
      exact hnew (hcN ▸ hbc ▸ hb)
  · cases o with
    | remove a =>
      obtain ⟨hother, ⟨s', hs'⟩, haddr, -, hlist, s, hs⟩ := opStep_remove hstep
      refine ⟨?_, ?_, ?_⟩
      · intro b q hb
        rw [haddr]
        by_cases hba : b = a
        · exact hba ▸ h.fresh a s hs
        · exact h.fresh b q ((hother b hba).symm.trans hb)
      · intro b hb
        rw [hlist] at hb
        by_cases hba : b = a
        · exact hba ▸ ⟨s', hs'⟩
        · rw [hother b hba]
          exact h.live b (List.mem_of_mem_erase hb)
      · rw [hlist]
        exact h.nodup.erase a
    | _ => exact absurd rfl hc

/-! ## What the ids being unique amounts to -/

/-- Distinct non-zero ids are found. -/
lemma idsUnique_of_distinct (hl : Listed D)
    (hnz : ∀ a ∈ D.localSocketList, ∀ s, D.sockets a = some s → s.id ≠ 0)
    (hd : ∀ a ∈ D.localSocketList, ∀ b ∈ D.localSocketList, ∀ s q,
      D.sockets a = some s → D.sockets b = some q → s.id = q.id → a = b) : IdsUnique D := by
  refine ⟨hnz, hd, ?_, ?_⟩
  · intro a ha s hs
    have hsome : (D.findLocalSocket s.id).isSome := by
      rw [findLocalSocket, List.find?_isSome]
      exact ⟨a, ha, by simp [hs]⟩
    obtain ⟨b, hb⟩ := Option.isSome_iff_exists.mp hsome
    have hmem := List.mem_of_find?_eq_some hb
    have hid := List.find?_some hb
    obtain ⟨q, hq⟩ := hl.live b hmem
    rw [hq, Option.any_some, decide_eq_true_eq] at hid
    rw [hb, hd a ha b hmem s q hs hq hid.symm]
  · rw [findLocalSocket, List.find?_eq_none]
    intro a ha
    obtain ⟨s, hs⟩ := hl.live a ha
    simpa [hs] using hnz a ha s hs

/-- One operation keeps the ids unique exactly when it is a removal or finds the next id
free. -/
lemma opStep_idsUnique (hl : Listed D) (hu : IdsUnique D) (hstep : opStep o D = .ok D') :
    IdsUnique D' ↔ (o.creates = true → NextIdFree D) := by
  have hl' := opStep_listed hl hstep
  by_cases hc : o.creates = true
  · obtain ⟨s, hsock, -, -, hlist⟩ := opStep_creates hc hstep
    have hnew : D'.sockets D.nextAddr = some { s with id := D.localSocketNextId } := by
      rw [hsock]
      exact update_self ..
    have hold : ∀ b ∈ D.localSocketList, b ≠ D.nextAddr ∧ D'.sockets b = D.sockets b := by
      intro b hb
      obtain ⟨q, hq⟩ := hl.live b hb
      have hne : b ≠ D.nextAddr := Nat.ne_of_lt (hl.fresh b q hq)
      exact ⟨hne, by rw [hsock, update_of_ne hne]⟩
    have hmemN : D.nextAddr ∈ D'.localSocketList := by simp [hlist]
    have hmem : ∀ b ∈ D.localSocketList, b ∈ D'.localSocketList := by
      intro b hb
      simp [hlist, hb]
    constructor
    · intro hu' _
      refine ⟨hu'.nonzero _ hmemN _ hnew, ?_⟩
      intro a ha q hq hid
      obtain ⟨hne, hsame⟩ := hold a ha
      exact hne (hu'.distinct a (hmem a ha) _ hmemN q _ (hsame.trans hq) hnew hid)
    · intro hfree
      obtain ⟨hzero, hunused⟩ := hfree hc
      have hcases : ∀ b ∈ D'.localSocketList, ∀ q, D'.sockets b = some q →
          (b ∈ D.localSocketList ∧ D.sockets b = some q) ∨
          (b = D.nextAddr ∧ q.id = D.localSocketNextId) := by
        intro b hb q hq
        rw [hlist, List.mem_append, List.mem_singleton] at hb
        rcases hb with hb | rfl
        · exact .inl ⟨hb, (hold b hb).2.symm.trans hq⟩
        · rw [hnew, Option.some.injEq] at hq
          exact .inr ⟨rfl, by rw [← hq]⟩
      apply idsUnique_of_distinct hl'
      · intro b hb q hq
        rcases hcases b hb q hq with ⟨hb, hq⟩ | ⟨-, hid⟩
        · exact hu.nonzero b hb q hq
        · exact hid ▸ hzero
      · intro b hb c hc' q r hq hr hid
        rcases hcases b hb q hq with ⟨hb, hq⟩ | ⟨hbN, hqid⟩
        · rcases hcases c hc' r hr with ⟨hc', hr⟩ | ⟨hcN, hrid⟩
          · exact hu.distinct b hb c hc' q r hq hr hid
          · exact absurd (hid.trans hrid) (hunused b hb q hq)
        · rcases hcases c hc' r hr with ⟨hc', hr⟩ | ⟨hcN, -⟩
          · exact absurd (hid.symm.trans hqid) (hunused c hc' r hr)
          · exact hbN.trans hcN.symm
  · refine ⟨fun _ hcr => absurd hcr hc, fun _ => ?_⟩
    cases o with
    | remove a =>
      obtain ⟨hother, -, -, -, hlist, -⟩ := opStep_remove hstep
      have hback : ∀ b ∈ D'.localSocketList, b ∈ D.localSocketList ∧
          D'.sockets b = D.sockets b := by
        intro b hb
        rw [hlist] at hb
        have hne : b ≠ a := fun hba => hl.nodup.not_mem_erase (hba ▸ hb)
        exact ⟨List.mem_of_mem_erase hb, hother b hne⟩
      apply idsUnique_of_distinct hl'
      · intro b hb q hq
        obtain ⟨hb, hsame⟩ := hback b hb
        exact hu.nonzero b hb q (hsame.symm.trans hq)
      · intro b hb c hc' q r hq hr hid
        obtain ⟨hb, hsame⟩ := hback b hb
        obtain ⟨hc', hsame'⟩ := hback c hc'
        exact hu.distinct b hb c hc' q r (hsame.symm.trans hq) (hsame'.symm.trans hr) hid
    | _ => exact absurd rfl hc

/-! ## Runs -/

/-- After each operation of the run the ids are unique exactly when each creation of the run
finds the next id free. -/
theorem idsUnique_iff_nextIdFree {config : Config} {fds : List ℕ} {inUse : ℕ → Bool}
    {os : List Op} {D₀ D : Daemon} (hstart : adbMain config fds inUse = .ok D₀)
    (hrun : run opStep os D₀ = .ok D) :
    Along opStep (fun o D => ∀ D', opStep o D = .ok D' → IdsUnique D') os D₀ ↔
      Along opStep (fun o D => o.creates = true → NextIdFree D) os D₀ := by
  have hlisted : Listed D₀ := by
    obtain ⟨L, O, I, rfl⟩ := adbMain_eq hstart
    exact ⟨fun a s hs => (by cases hs), by simp, List.nodup_nil⟩
  have hunique : IdsUnique D₀ := by
    obtain ⟨L, O, I, rfl⟩ := adbMain_eq hstart
    exact idsUnique_of_distinct hlisted (by simp) (by simp)
  clear hstart
  induction os generalizing D₀ with
  | nil => exact Iff.rfl
  | cons o os ih =>
    obtain ⟨D₁, hstep, hrest⟩ := run_cons_ok.mp hrun
    have hlisted₁ := opStep_listed hlisted hstep
    have hiff := opStep_idsUnique hlisted hunique hstep
    constructor
    · intro h
      have hu₁ := h.1 D₁ hstep
      refine Along.cons_ok (hiff.mp hu₁) hstep ?_
      exact (ih hrest hlisted₁ hu₁).mp (h.2 D₁ hstep)
    · intro h
      have hu₁ := hiff.mpr h.1
      refine Along.cons_ok ?_ hstep ((ih hrest hlisted₁ hu₁).mpr (h.2 D₁ hstep))
      intro D' hD'
      cases hstep.symm.trans hD'
      exact hu₁

/-- Two sockets, one of them removed, on a daemon that has just started. -/
theorem idsUnique_iff_nextIdFree_two : ∃ D₀ D : Daemon,
    adbMain {} [3, 4, 5, 6, 7, 8, 9] (fun n => decide (n < 3)) = .ok D₀ ∧
    run opStep [.createJdwp, .createTracker, .remove 0] D₀ = .ok D ∧
    (Along opStep (fun o D => ∀ D', opStep o D = .ok D' → IdsUnique D')
        [.createJdwp, .createTracker, .remove 0] D₀ ↔
      Along opStep (fun o D => o.creates = true → NextIdFree D)
        [.createJdwp, .createTracker, .remove 0] D₀) := by
  have hstart : ∃ D₀, adbMain {} [3, 4, 5, 6, 7, 8, 9] (fun n => decide (n < 3)) = .ok D₀ :=
    ⟨_, rfl⟩
  obtain ⟨D₀, hstart⟩ := hstart
  have hrun : ∃ D, run opStep [.createJdwp, .createTracker, .remove 0] D₀ = .ok D := by
    obtain ⟨L, O, I, rfl⟩ := adbMain_eq hstart
    exact ⟨_, rfl⟩
  obtain ⟨D, hrun⟩ := hrun
  exact ⟨D₀, D, hstart, hrun, idsUnique_iff_nextIdFree hstart hrun⟩

/-! ## The counter wraps -/

/-- Creating and removing `k` sockets one after the other. -/
def rounds (k : ℕ) : List Op := (List.range k).flatMap fun i => [.createJdwp, .remove i]

lemma rounds_succ (k : ℕ) : rounds (k + 1) = rounds k ++ [.createJdwp, .remove k] := by
  rw [rounds, List.range_succ, List.flatMap_append]
  simp [rounds]

/-- A socket that is created and removed leaves the list empty and the counter one further. -/
lemma run_round (hl : D.localSocketList = []) : ∃ D',
    run opStep [.createJdwp, .remove D.nextAddr] D = .ok D' ∧ D'.localSocketList = [] ∧
    D'.localSocketNextId = D.localSocketNextId + 1 ∧ D'.nextAddr = D.nextAddr + 1 := by
  have hcreate : opStep .createJdwp D = .ok (D.allocated { ops := .jdwp }) := by
    show ((D.callocSocket { ops := .jdwp }).2.installLocalSocket D.nextAddr >>= _) >>= _ = _
    rw [installLocalSocket_calloc]
    rfl
  have hlive : (D.allocated { ops := .jdwp }).sockets D.nextAddr =
      some { ops := .jdwp, id := D.localSocketNextId } := update_self ..
  obtain ⟨i, hremove⟩ := removeSocket_eq hlive
  refine ⟨_, run_cons_ok.mpr ⟨_, hcreate, run_cons_ok.mpr ⟨_, hremove, rfl⟩⟩, ?_, rfl, rfl⟩
  show (D.localSocketList ++ [D.nextAddr]).erase D.nextAddr = []
  simp [hl]

lemma run_rounds (k : ℕ) (hl : D.localSocketList = []) (ha : D.nextAddr = 0)
    (hn : D.localSocketNextId = 1) : ∃ D', run opStep (rounds k) D = .ok D' ∧
    D'.localSocketList = [] ∧ D'.localSocketNextId = UInt32.ofNat (k + 1) ∧ D'.nextAddr = k := by
  induction k with
  | zero => exact ⟨D, rfl, hl, hn, ha⟩
  | succ k ih =>
    obtain ⟨D₁, hrun, hl₁, hn₁, ha₁⟩ := ih
    obtain ⟨D₂, hround, hl₂, hn₂, ha₂⟩ := run_round hl₁
    rw [ha₁] at hround
    refine ⟨D₂, ?_, hl₂, ?_, ?_⟩
    · rw [rounds_succ]
      exact run_append_ok.mpr ⟨D₁, hrun, hround⟩
    · rw [hn₂, hn₁, UInt32.ofNat_add (k + 1) 1]
      rfl
    · rw [ha₂, ha₁]

/-- After 2³² - 1 sockets the next one gets the id 0. -/
theorem idsUnique_fails_on_wrap : ∃ D₀ D : Daemon,
    adbMain {} [3, 4, 5, 6, 7, 8, 9] (fun n => decide (n < 3)) = .ok D₀ ∧
    run opStep (rounds (2 ^ 32 - 1) ++ [.createJdwp]) D₀ = .ok D ∧ ¬IdsUnique D := by
  have hstart : ∃ D₀, adbMain {} [3, 4, 5, 6, 7, 8, 9] (fun n => decide (n < 3)) = .ok D₀ :=
    ⟨_, rfl⟩
  obtain ⟨D₀, hstart⟩ := hstart
  have hrounds : ∃ D₁, run opStep (rounds (2 ^ 32 - 1)) D₀ = .ok D₁ ∧
      D₁.localSocketList = [] ∧ D₁.localSocketNextId = UInt32.ofNat (2 ^ 32 - 1 + 1) ∧
      D₁.nextAddr = 2 ^ 32 - 1 := by
    obtain ⟨L, O, I, rfl⟩ := adbMain_eq hstart
    exact run_rounds _ rfl rfl rfl
  obtain ⟨D₁, hrun, hl, hn, -⟩ := hrounds
  have hcreate : opStep .createJdwp D₁ = .ok (D₁.allocated { ops := .jdwp }) := by
    show ((D₁.callocSocket { ops := .jdwp }).2.installLocalSocket D₁.nextAddr >>= _) >>= _ = _
    rw [installLocalSocket_calloc]
    rfl
  refine ⟨D₀, _, hstart, run_append_ok.mpr ⟨D₁, hrun, run_cons_ok.mpr ⟨_, hcreate, rfl⟩⟩, ?_⟩
  intro hu
  refine hu.nonzero D₁.nextAddr ?_ { ops := .jdwp, id := D₁.localSocketNextId }
    (update_self ..) ?_
  · exact List.mem_append_right _ List.mem_cons_self
  · rw [hn]
    decide

end SocketIds

end Adbd
