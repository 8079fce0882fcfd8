import Adbd.Model.FdeventSpec

/-!
# The interest list mirrors the subscriptions

`fdevent_update` never asks the kernel whether a descriptor is registered: it infers it from the
low byte of the state word, and a wrong inference makes `epoll_ctl` fail and the daemon exit.
The inference is sound as long as the low byte holds events and nothing else.
`FDE_DONT_CLOSE` is not an event, but its value `0x0080` lies in the low byte; an `fdevent`
that carries the flag looks registered when it is not.

This file runs arbitrary sequences of the operations the program issues, over any number of
`fdevent`s, and settles exactly when the mirror holds: `flagSafe_iff_mirrors`.
-/

namespace Adbd

open FlagWord Transition

namespace EpollMirror

variable {κ : Type} [DecidableEq κ]

open Loop

/-! ## Operation sequences -/

/-- A set of `FDE_READ` and `FDE_WRITE`. -/
structure ReadWrite where
  read : Bool
  write : Bool
  deriving DecidableEq, Repr

def ReadWrite.mask (s : ReadWrite) : BitVec 16 :=
  (if s.read then fdeRead else 0#16) ||| (if s.write then fdeWrite else 0#16)

/-- The operations on `fdevent`s, and the descriptors they are installed on being opened. -/
inductive Op (κ : Type)
  | openFd (n : ℕ)
  | install (k : κ) (n : ℕ)
  | create (k : κ) (n : ℕ)
  /-- `fde->state |= FDE_DONT_CLOSE`, as in `jdwp_process_alloc`. -/
  | dontClose (k : κ)
  | set (k : κ) (s : ReadWrite)
  | add (k : κ) (s : ReadWrite)
  | del (k : κ) (s : ReadWrite)
  | remove (k : κ)
  deriving DecidableEq, Repr

/-- One operation. -/
def step : Op κ → Loop κ → Except Stop (Loop κ)
  | .openFd n, L => L.openFd n
  | .install k n, L => L.fdeventInstall k n
  | .create k n, L => L.fdeventCreate k n
  | .dontClose k, L =>
    .ok (L.setMem k { L.mem k with state := (L.mem k).state ||| fdeDontClose })
  | .set k s, L => L.fdeventSet k s.mask
  | .add k s, L => L.fdeventAdd k s.mask
  | .del k s, L => L.fdeventDel k s.mask
  | .remove k, L => L.fdeventRemove k

/-- The order in which the program issues the operations: an `fdevent` is installed on an open
descriptor that has no installed `fdevent`, flagged (if at all) before it subscribes to
anything, then set, added to and deleted from, then removed. -/
def Legal : Op κ → Loop κ → Prop
  | .openFd _, _ => True
  | .install k n, L => ¬L.Installed k ∧ L.inUse n = true ∧ ∀ j, L.Installed j → (L.mem j).fd ≠ n
  | .create k n, L => ¬L.Installed k ∧ L.inUse n = true ∧ ∀ j, L.Installed j → (L.mem j).fd ≠ n
  | .dontClose k, L => L.Installed k ∧ (L.mem k).state &&& fdeEventMask = 0#16
  | .set k _, L => L.Installed k
  | .add k _, L => L.Installed k
  | .del k _, L => L.Installed k
  | .remove k, L => L.Installed k

/-- No `fdevent` yet, no descriptor registered. -/
def initial (fill : ℕ → Slot κ) (inUse : ℕ → Bool) : Loop κ where
  mem _ := {}
  listPending := []
  fdTable _ := .null
  fdTableMax := 0
  fill := fill
  inUse := inUse
  interest _ := none

/-! ## The mirror -/

/-- The interest-list entry an `fdevent` asks for: none unless it subscribes to `FDE_READ`,
`FDE_WRITE` or `FDE_ERROR`. -/
def subscription (k : κ) (state : BitVec 16) : Option (EpollMask × κ) :=
  if (epollMask state).nonzero then some (epollMask state, k) else none

/-- For every installed `fdevent` the kernel holds exactly its subscription. -/
def Mirror (L : Loop κ) : Prop :=
  ∀ k, L.Installed k → L.interest (L.mem k).fd = subscription k (L.mem k).state

/-- The operation leaves the mirror intact and makes no `epoll_ctl` of `fdevent_update` fail. -/
def Mirrors (op : Op κ) (L : Loop κ) : Prop :=
  match step op L with
  | .ok L' => Mirror L'
  | .error s => ∀ n, s ≠ .epollCtl n

/-- An `fdevent` that carries `FDE_DONT_CLOSE` is not given a subscription. -/
def FlagSafe : Op κ → Loop κ → Prop
  | .set k _, L => has (L.mem k).state fdeDontClose = false
  | .add k s, L => has (L.mem k).state fdeDontClose = true → s.read = false ∧ s.write = false
  | _, _ => True

/-- What an operation sequence maintains beside the mirror. -/
structure Inv (L : Loop κ) : Prop where
  mirror : Mirror L
  inj : ∀ j k, L.Installed j → L.Installed k → (L.mem j).fd = (L.mem k).fd → j = k
  opened : ∀ k, L.Installed k → L.inUse (L.mem k).fd = true
  owned : ∀ n m k, L.interest n = some (m, k) → L.Installed k ∧ (L.mem k).fd = n
  /-- The low byte is a set of events, or exactly the flag. -/
  low : ∀ k, L.Installed k →
    has (L.mem k).state 0x00f8#16 = false ∨ (L.mem k).state &&& fdeEventMask = fdeDontClose

omit [DecidableEq κ] in
lemma inv_initial (fill : ℕ → Slot κ) (inUse : ℕ → Bool) : Inv (initial fill inUse) := by
  have hidle : ∀ k, ¬(initial fill inUse : Loop κ).Installed k := by
    intro k
    simp [Installed, initial]
  exact ⟨fun k hk => absurd hk (hidle k), fun j _ hj => absurd hj (hidle j),
    fun k hk => absurd hk (hidle k), fun n m k h => by simp [initial] at h,
    fun k hk => absurd hk (hidle k)⟩

omit [DecidableEq κ] in
lemma subscription_eq_none {k : κ} {x : BitVec 16} (h : (epollMask x).nonzero = false) :
    subscription k x = none := by
  rw [subscription, if_neg (by simp [h])]

omit [DecidableEq κ] in
lemma subscription_congr {k : κ} {x y : BitVec 16}
    (h : x &&& fdeEventMask = y &&& fdeEventMask) : subscription k x = subscription k y := by
  rw [subscription, subscription, epollMask_congr h]

/-- A flagged `fdevent` subscribes to nothing and yet looks registered. -/
lemma looks_registered {x : BitVec 16} (h : x &&& fdeEventMask = fdeDontClose) :
    has x fdeEventMask = true ∧ (epollMask x).nonzero = false := by
  have hc : x &&& fdeEventMask = fdeDontClose &&& fdeEventMask := h.trans (by decide)
  constructor
  · rw [has_congr hc (by decide)]
    decide
  · rw [epollMask_congr hc]
    decide

lemma flagged_of_low {x : BitVec 16} (h : x &&& fdeEventMask = fdeDontClose) :
    has x fdeDontClose = true := by
  have hc : x &&& fdeEventMask = fdeDontClose &&& fdeEventMask := h.trans (by decide)
  rw [has_congr hc (by decide)]
  decide

lemma unflagged_of_low {x : BitVec 16} (h : has x 0x00f8#16 = false) :
    has x fdeDontClose = false := by
  have hmask : (0x00f8#16 : BitVec 16) = fdeDontClose ||| 0x0078#16 := by decide
  rw [hmask, has_or_mask] at h
  simpa using (Bool.or_eq_false_iff.mp h).1

/-! ## Changing one subscription -/

/-- Rewriting the struct of `k`, with the interest entry of its descriptor following the new
subscription, keeps the invariant. -/
lemma Inv.resubscribe {L L' : Loop κ} {k : κ} (hL : Inv L) (hk : L.Installed k)
    (hother : ∀ j, j ≠ k → L'.mem j = L.mem j) (hfd : (L'.mem k).fd = (L.mem k).fd)
    (hact : L'.Installed k) (hinUse : L'.inUse = L.inUse)
    (hint : L'.interest = Function.update L.interest (L.mem k).fd
      (subscription k (L'.mem k).state))
    (hlow : has (L'.mem k).state 0x00f8#16 = false ∨
      (L'.mem k).state &&& fdeEventMask = fdeDontClose) : Inv L' := by
  have hinst : ∀ j, L'.Installed j ↔ L.Installed j := by
    intro j
    by_cases hj : j = k
    · subst hj
      exact ⟨fun _ => hk, fun _ => hact⟩
    · rw [Installed, Installed, hother j hj]
  have hfds : ∀ j, (L'.mem j).fd = (L.mem j).fd := by
    intro j
    by_cases hj : j = k
    · subst hj
      exact hfd
    · rw [hother j hj]
  refine ⟨?_, ?_, ?_, ?_, ?_⟩
  · intro j hj
    rw [hfds j, hint]
    by_cases hjk : j = k
    · subst hjk
      exact Function.update_self ..
    · have hne : (L.mem j).fd ≠ (L.mem k).fd :=
        fun h => hjk (hL.inj j k ((hinst j).mp hj) hk h)
      rw [Function.update_of_ne hne, hother j hjk]
      exact hL.mirror j ((hinst j).mp hj)
  · intro i j hi hj hij
    rw [hfds i, hfds j] at hij
    exact hL.inj i j ((hinst i).mp hi) ((hinst j).mp hj) hij
  · intro j hj
    rw [hinUse, hfds j]
    exact hL.opened j ((hinst j).mp hj)
  · intro n m j h
    rw [hint] at h
    by_cases hn : n = (L.mem k).fd
    · subst hn
      rw [Function.update_self, subscription] at h
      split at h
      · cases h
        exact ⟨hact, hfd⟩
      · exact absurd h (by simp)
    · rw [Function.update_of_ne hn] at h
      obtain ⟨hin, heq⟩ := hL.owned n m j h
      exact ⟨(hinst j).mpr hin, (hfds j).trans heq⟩
  · intro j hj
    by_cases hjk : j = k
    · subst hjk
      exact hlow
    · rw [hother j hjk]
      exact hL.low j ((hinst j).mp hj)

/-- With an honest low byte the inference of `fdevent_update` is right, and the call goes
through. -/
lemma fdeventUpdate_mirrored {L : Loop κ} {k : κ} {ev : BitVec 16} (hL : Inv L)
    (hk : L.Installed k) (hlow : has (L.mem k).state 0x00f8#16 = false) :
    L.fdeventUpdate k ev = .ok { L.setMem k { L.mem k with
        state := ((L.mem k).state &&& fdeStateMask) ||| ev } with
      interest := Function.update L.interest (L.mem k).fd (subscription k ev) } := by
  have hmir := hL.mirror k hk
  have hopen := hL.opened k hk
  have hact : has (L.mem k).state fdeEventMask = (epollMask (L.mem k).state).nonzero := by
    rw [has_eventMask, hlow, Bool.or_false]
  unfold fdeventUpdate epollCtl
  simp only [hact]
  by_cases hev : (epollMask ev).nonzero = true
  · have hsub : subscription k ev = some (epollMask ev, k) := if_pos hev
    rw [if_pos hev, hsub]
    by_cases hreg : (epollMask (L.mem k).state).nonzero = true
    · have hsome : (L.interest (L.mem k).fd).isSome = true := by
        rw [hmir, subscription, if_pos hreg]
        rfl
      simp [hreg, setMem, hsome]
    · have hnone : L.interest (L.mem k).fd = none := by
        rw [hmir, subscription, if_neg hreg]
      simp [hreg, setMem, hnone, hopen]
  · have hsub : subscription k ev = none := if_neg hev
    rw [if_neg hev, hsub]
    by_cases hreg : (epollMask (L.mem k).state).nonzero = true
    · have hsome : (L.interest (L.mem k).fd).isSome = true := by
        rw [hmir, subscription, if_pos hreg]
        rfl
      simp [hreg, setMem, hsome]
    · have hnone : L.interest (L.mem k).fd = none := by
        rw [hmir, subscription, if_neg hreg]
      have hsame : Function.update L.interest (L.mem k).fd none = L.interest := by
        rw [← hnone, Function.update_eq_self]
      simp [hreg, setMem, hsame]

/-- `fdevent_set` on an unflagged `fdevent` succeeds and keeps the invariant. -/
lemma fdeventSet_mirrored {L : Loop κ} {k : κ} {ev : BitVec 16} (hL : Inv L)
    (hk : L.Installed k) (hlow : has (L.mem k).state 0x00f8#16 = false)
    (hev : has ev 0x00f8#16 = false) : ∃ L', L.fdeventSet k ev = .ok L' ∧ Inv L' := by
  unfold fdeventSet
  simp only
  by_cases hsame : (L.mem k).state &&& fdeEventMask = ev &&& fdeEventMask
  · exact ⟨L, by rw [if_pos hsame]; rfl, hL⟩
  · rw [if_neg hsame, if_pos (show has _ _ = true from hk), fdeventUpdate_mirrored hL hk hlow]
    refine ⟨_, rfl, ?_⟩
    simp only [setMem_mem_self]
    rw [splice_splice]
    set N : Loop κ := setMem k { L.mem k with
        state := ((L.mem k).state &&& fdeStateMask) ||| (ev &&& fdeEventMask) }
      { L.setMem k { L.mem k with
        state := ((L.mem k).state &&& fdeStateMask) ||| (ev &&& fdeEventMask) } with
        interest := Function.update L.interest (L.mem k).fd
          (subscription k (ev &&& fdeEventMask)) } with hN
    have hNk : (N.mem k).state = ((L.mem k).state &&& fdeStateMask) ||| (ev &&& fdeEventMask) := by
      simp [hN]
    obtain ⟨f, l, heq, hfd, -, hstate, hlow', -, -⟩ :=
      dropPending_eq k (ev &&& fdeEventMask) N
    rw [heq]
    have hfev : f.state &&& fdeEventMask = (ev &&& fdeEventMask) &&& fdeEventMask := by
      rw [hlow', hNk, and_eventMask_splice, BitVec.and_assoc, BitVec.and_self]
    apply hL.resubscribe hk
    · intro j hj
      simp [setMem, hN, Function.update_of_ne hj]
    · simpa [hN] using hfd
    · rw [Installed]
      simp only [setMem_mem_self]
      rw [hstate _ (by decide), hNk, has_splice_high (by decide)]
      · exact hk
      · exact has_and_of_disjoint (by decide)
    · rfl
    · show Function.update L.interest (L.mem k).fd (subscription k (ev &&& fdeEventMask)) = _
      rw [setMem_mem_self, subscription_congr hfev.symm]
    · left
      rw [setMem_mem_self, has_congr hfev (by decide), has_and_of_covered (by decide)]
      exact hev

/-- `fdevent_set` on a flagged `fdevent` that would change its low byte makes `epoll_ctl`
modify or delete a descriptor that is not registered. -/
lemma fdeventSet_flagged {L : Loop κ} {k : κ} {ev : BitVec 16} (hL : Inv L)
    (hk : L.Installed k) (hlow : (L.mem k).state &&& fdeEventMask = fdeDontClose)
    (hev : ev &&& fdeEventMask ≠ fdeDontClose) :
    L.fdeventSet k ev = .error (.epollCtl (L.mem k).fd) := by
  obtain ⟨hact, hzero⟩ := looks_registered hlow
  have hnone : L.interest (L.mem k).fd = none := by
    rw [hL.mirror k hk, subscription_eq_none hzero]
  have hupd : L.fdeventUpdate k (ev &&& fdeEventMask) = .error (.epollCtl (L.mem k).fd) := by
    unfold fdeventUpdate epollCtl
    simp only [hact, if_true]
    split <;> simp [setMem, hnone]
  unfold fdeventSet
  simp only
  rw [if_neg (by rw [hlow]; exact fun h => hev h.symm), if_pos (show has _ _ = true from hk), hupd]
  rfl

/-! ## One operation -/

lemma mask_low (s : ReadWrite) : has s.mask 0x00f8#16 = false := by
  obtain ⟨r, w⟩ := s
  cases r <;> cases w <;> decide

lemma mask_ne_flag (s : ReadWrite) : s.mask &&& fdeEventMask ≠ fdeDontClose := by
  obtain ⟨r, w⟩ := s
  cases r <;> cases w <;> decide

/-- A freshly installed `fdevent` subscribes to nothing, and its descriptor has no entry. -/
lemma Inv.install {L : Loop κ} {k : κ} {n : ℕ} {state : BitVec 16} {T : ℕ → Slot κ} {M : ℕ}
    (hL : Inv L) (hidle : ¬L.Installed k) (hopen : L.inUse n = true)
    (hfree : ∀ j, L.Installed j → (L.mem j).fd ≠ n) (hlow : has state fdeEventMask = false) :
    Inv { L.setMem k { fd := n, state := state } with fdTable := T, fdTableMax := M } := by
  have hzero : (epollMask state).nonzero = false ∧ has state 0x00f8#16 = false := by
    rw [has_eventMask] at hlow
    exact Bool.or_eq_false_iff.mp hlow
  have hnone : L.interest n = none := by
    cases he : L.interest n with
    | none => rfl
    | some e =>
      obtain ⟨m, j⟩ := e
      obtain ⟨hj, hfd⟩ := hL.owned n m j he
      exact absurd hfd (hfree j hj)
  have hmem : ∀ j, j ≠ k → (L.setMem k { fd := n, state := state }).mem j = L.mem j :=
    fun j hj => setMem_mem_of_ne hj ..
  have hinst : ∀ j, j ≠ k →
      (({ L.setMem k { fd := n, state := state } with fdTable := T, fdTableMax := M } : Loop κ
        ).Installed j ↔ L.Installed j) := by
    intro j hj
    rw [Installed, Installed]
    simp only [hmem j hj]
  refine ⟨?_, ?_, ?_, ?_, ?_⟩
  · intro j hj
    by_cases hjk : j = k
    · subst hjk
      simp only [setMem_mem_self]
      exact hnone.trans (subscription_eq_none hzero.1).symm
    · simp only [hmem j hjk]
      exact hL.mirror j ((hinst j hjk).mp hj)
  · intro i j hi hj hij
    by_cases hik : i = k <;> by_cases hjk : j = k
    · rw [hik, hjk]
    · subst hik
      simp only [setMem_mem_self, hmem j hjk] at hij
      exact absurd hij.symm (hfree j ((hinst j hjk).mp hj))
    · subst hjk
      simp only [setMem_mem_self, hmem i hik] at hij
      exact absurd hij (hfree i ((hinst i hik).mp hi))
    · simp only [hmem i hik, hmem j hjk] at hij
      exact hL.inj i j ((hinst i hik).mp hi) ((hinst j hjk).mp hj) hij
  · intro j hj
    by_cases hjk : j = k
    · subst hjk
      rw [setMem_mem_self]
      exact hopen
    · simp only [hmem j hjk]
      exact hL.opened j ((hinst j hjk).mp hj)
  · intro p m j h
    obtain ⟨hj, hfd⟩ := hL.owned p m j h
    have hjk : j ≠ k := fun h => hidle (h ▸ hj)
    refine ⟨(hinst j hjk).mpr hj, ?_⟩
    simp only [hmem j hjk]
    exact hfd
  · intro j hj
    by_cases hjk : j = k
    · subst hjk
      left
      simpa using hzero.2
    · simp only [hmem j hjk]
      exact hL.low j ((hinst j hjk).mp hj)

/-- Removing an `fdevent` takes its entry off the interest list. -/
lemma Inv.remove {L L' : Loop κ} {k : κ} (hL : Inv L) (hk : L.Installed k)
    (h : RemoveSpec k L L') : Inv L' := by
  have hinst : ∀ j, L'.Installed j → j ≠ k ∧ L.Installed j := by
    intro j hj
    by_cases hjk : j = k
    · subst hjk
      rw [Installed, h.mem_self] at hj
      simp at hj
    · rw [Installed, h.mem_other j hjk] at hj
      exact ⟨hjk, hj⟩
  have hfd : ∀ j, j ≠ k → L.Installed j → (L.mem j).fd ≠ (L.mem k).fd :=
    fun j hjk hj heq => hjk (hL.inj j k hj hk heq)
  refine ⟨?_, ?_, ?_, ?_, ?_⟩
  · intro j hj
    obtain ⟨hjk, hj⟩ := hinst j hj
    rw [h.mem_other j hjk, h.interest_other _ (hfd j hjk hj)]
    exact hL.mirror j hj
  · intro i j hi hj hij
    obtain ⟨hik, hi⟩ := hinst i hi
    obtain ⟨hjk, hj⟩ := hinst j hj
    rw [h.mem_other i hik, h.mem_other j hjk] at hij
    exact hL.inj i j hi hj hij
  · intro j hj
    obtain ⟨hjk, hj⟩ := hinst j hj
    rw [h.mem_other j hjk, h.inUse_other _ (hfd j hjk hj)]
    exact hL.opened j hj
  · intro n m j he
    obtain ⟨hj, hn⟩ := hL.owned n m j (h.interest_sub n _ he)
    have hjk : j ≠ k := by
      rintro rfl
      rw [← hn, h.interest_self hk] at he
      exact absurd he (by simp)
    refine ⟨?_, ?_⟩
    · rw [Installed, h.mem_other j hjk]
      exact hj
    · rw [h.mem_other j hjk]
      exact hn
  · intro j hj
    obtain ⟨hjk, hj⟩ := hinst j hj
    rw [h.mem_other j hjk]
    exact hL.low j hj

/-- A legal operation that hands no subscription to a flagged `fdevent` keeps the invariant, or
stops for a reason other than `epoll_ctl`. -/
lemma step_of_flagSafe {op : Op κ} {L : Loop κ} (hL : Inv L) (hlegal : Legal op L)
    (hsafe : FlagSafe op L) :
    (∃ L', step op L = .ok L' ∧ Inv L') ∨
      ∃ s, step op L = .error s ∧ ∀ n, s ≠ .epollCtl n := by
  cases op with
  | openFd n =>
    by_cases hn : L.inUse n = true
    · exact .inr ⟨.disabled, by simp [step, Loop.openFd, hn], by simp⟩
    · refine .inl ⟨_, by simp [step, Loop.openFd, hn]; rfl, ?_⟩
      refine ⟨hL.mirror, hL.inj, ?_, hL.owned, hL.low⟩
      intro k hk
      have hne : (L.mem k).fd ≠ n := fun h => hn (h ▸ hL.opened k hk)
      simp only [Function.update_of_ne hne]
      exact hL.opened k hk
  | install k n =>
    obtain ⟨hidle, hopen, hfree⟩ := hlegal
    cases h : step (.install k n) L with
    | error s =>
      have hs := fdeventInstall_error h
      exact .inr ⟨s, rfl, by simp [hs]⟩
    | ok L' =>
      obtain ⟨T, M, rfl, -, -⟩ := fdeventInstall_ok h
      exact .inl ⟨_, rfl, hL.install hidle hopen hfree (by decide)⟩
  | create k n =>
    obtain ⟨hidle, hopen, hfree⟩ := hlegal
    cases h : step (.create k n) L with
    | error s =>
      have hs := fdeventCreate_error h
      exact .inr ⟨s, rfl, by simp [hs]⟩
    | ok L' =>
      obtain ⟨T, M, rfl, -⟩ := fdeventCreate_ok h
      exact .inl ⟨_, rfl, hL.install hidle hopen hfree (by decide)⟩
  | dontClose k =>
    obtain ⟨hk, hlow⟩ := hlegal
    refine .inl ⟨_, rfl, ?_⟩
    have hflag : ((L.mem k).state ||| fdeDontClose) &&& fdeEventMask = fdeDontClose := by
      rw [BitVec.and_or_distrib_right, hlow]
      decide
    have hzero : (epollMask (L.mem k).state).nonzero = false := by
      rw [epollMask_congr (y := 0#16) (by rw [hlow]; decide)]
      decide
    apply hL.resubscribe hk
    · exact fun j hj => setMem_mem_of_ne hj ..
    · simp
    · rw [Installed, setMem_mem_self, has_or, show has _ _ = true from hk, Bool.true_or]
    · rfl
    · rw [setMem_mem_self, subscription_eq_none (looks_registered hflag).2,
        ← subscription_eq_none (k := k) hzero, ← hL.mirror k hk, Function.update_eq_self]
      rfl
    · right
      simpa using hflag
  | set k s =>
    have hlow : has (L.mem k).state 0x00f8#16 = false := by
      rcases hL.low k hlegal with h | h
      · exact h
      · exact absurd (flagged_of_low h) (by simp [show has _ _ = false from hsafe])
    exact .inl (fdeventSet_mirrored hL hlegal hlow (mask_low s))
  | add k s =>
    rcases hL.low k hlegal with hlow | hlow
    · refine .inl (fdeventSet_mirrored hL hlegal hlow ?_)
      rw [has_or, has_and_of_covered (by decide), has_and_of_covered (by decide), hlow,
        mask_low, Bool.or_false]
    · -- adding nothing to a flagged `fdevent` returns at once
      obtain ⟨hr, hw⟩ := hsafe (flagged_of_low hlow)
      refine .inl ⟨L, ?_, hL⟩
      have hmask : s.mask = 0#16 := by simp [ReadWrite.mask, hr, hw]
      simp only [step, fdeventAdd, fdeventSet, hlow, hmask]
      rfl
  | del k s =>
    rcases hL.low k hlegal with hlow | hlow
    · refine .inl (fdeventSet_mirrored hL hlegal hlow ?_)
      by_contra hcon
      have hcon : has ((L.mem k).state &&& fdeEventMask) 0x00f8#16 = true :=
        has_of_has_and (by simpa using hcon)
      rw [has_and_of_covered (by decide), hlow] at hcon
      exact absurd hcon (by simp)
    · -- deleting events a flagged `fdevent` does not have returns at once
      refine .inl ⟨L, ?_, hL⟩
      have hkeep : fdeDontClose &&& ~~~(s.mask &&& fdeEventMask) = fdeDontClose := by
        obtain ⟨r, w⟩ := s
        cases r <;> cases w <;> decide
      simp only [step, fdeventDel, fdeventSet, hlow, hkeep]
      rfl
  | remove k =>
    cases h : step (.remove k) L with
    | ok L' => exact .inl ⟨L', rfl, hL.remove hlegal (fdeventRemove_spec h)⟩
    | error s =>
      obtain ⟨n, rfl⟩ := fdeventRemove_error h
      exact .inr ⟨_, rfl, by simp⟩

/-- Handing a subscription to a flagged `fdevent` makes `epoll_ctl` fail. -/
lemma step_of_not_flagSafe {op : Op κ} {L : Loop κ} (hL : Inv L) (hlegal : Legal op L)
    (hsafe : ¬FlagSafe op L) : ∃ n, step op L = .error (.epollCtl n) := by
  cases op with
  | set k s =>
    have hflag : has (L.mem k).state fdeDontClose = true := by
      simpa [FlagSafe] using hsafe
    have hlow : (L.mem k).state &&& fdeEventMask = fdeDontClose := by
      rcases hL.low k hlegal with h | h
      · exact absurd hflag (by simp [unflagged_of_low h])
      · exact h
    exact ⟨_, fdeventSet_flagged hL hlegal hlow (mask_ne_flag s)⟩
  | add k s =>
    simp only [FlagSafe, Classical.not_imp] at hsafe
    obtain ⟨hflag, hnonempty⟩ := hsafe
    have hlow : (L.mem k).state &&& fdeEventMask = fdeDontClose := by
      rcases hL.low k hlegal with h | h
      · exact absurd hflag (by simp [unflagged_of_low h])
      · exact h
    refine ⟨_, fdeventSet_flagged hL hlegal hlow ?_⟩
    rw [hlow]
    obtain ⟨r, w⟩ := s
    cases r <;> cases w
    · exact absurd ⟨rfl, rfl⟩ hnonempty
    all_goals decide
  | openFd n => exact absurd trivial hsafe
  | install k n => exact absurd trivial hsafe
  | create k n => exact absurd trivial hsafe
  | dontClose k => exact absurd trivial hsafe
  | del k s => exact absurd trivial hsafe
  | remove k => exact absurd trivial hsafe

/-! ## Operation sequences -/

/-- **The mirror holds exactly on the sequences that never subscribe a flagged `fdevent`.**
For every legal sequence of operations on any number of `fdevent`s, from no registered
descriptor: after every operation the interest list holds exactly the subscriptions of the
installed `fdevent`s and no `epoll_ctl` of `fdevent_update` failed, if and only if no
`fdevent` carrying `FDE_DONT_CLOSE` was given to `fdevent_set`, or to `fdevent_add` with
`FDE_READ` or `FDE_WRITE`. -/
theorem flagSafe_iff_mirrors (fill : ℕ → Slot κ) (inUse : ℕ → Bool) (ops : List (Op κ))
    (hlegal : Along step Legal ops (initial fill inUse)) :
    Along step Mirrors ops (initial fill inUse) ↔
      Along step FlagSafe ops (initial fill inUse) := by
  -- by induction on the sequence, from any state that satisfies the invariant
  suffices h : ∀ L : Loop κ, Inv L → Along step Legal ops L →
      (Along step Mirrors ops L ↔ Along step FlagSafe ops L) from
    h _ (inv_initial fill inUse) hlegal
  clear hlegal
  induction ops with
  | nil => exact fun _ _ _ => Iff.rfl
  | cons op ops ih =>
    intro L hL hlegal
    by_cases hsafe : FlagSafe op L
    · rcases step_of_flagSafe hL hlegal.1 hsafe with ⟨L', hok, hL'⟩ | ⟨s, herr, hs⟩
      · have hop : Mirrors op L := by
          rw [Mirrors, hok]
          exact hL'.mirror
        have hrest := ih L' hL' (hlegal.2 L' hok)
        constructor
        · rintro ⟨-, h⟩
          refine ⟨hsafe, fun M hM => ?_⟩
          cases hok.symm.trans hM
          exact hrest.mp (h L' hok)
        · rintro ⟨-, h⟩
          refine ⟨hop, fun M hM => ?_⟩
          cases hok.symm.trans hM
          exact hrest.mpr (h L' hok)
      · have hop : Mirrors op L := by
          rw [Mirrors, herr]
          exact hs
        exact ⟨fun _ => ⟨hsafe, fun M hM => by simp [herr] at hM⟩,
          fun _ => ⟨hop, fun M hM => by simp [herr] at hM⟩⟩
    · obtain ⟨n, hn⟩ := step_of_not_flagSafe hL hlegal.1 hsafe
      constructor
      · rintro ⟨hop, -⟩
        rw [Mirrors, hn] at hop
        exact absurd rfl (hop n)
      · rintro ⟨h, -⟩
        exact absurd h hsafe

/-- What `jdwp_process_alloc` does with the socket of a new JDWP process, on descriptor 5. -/
def jdwpProcessAllocOps : List (Op Unit) :=
  [.openFd 5, .create () 5, .dontClose (), .add () ⟨true, false⟩]

lemma jdwpProcessAllocOps_legal :
    Along step Legal jdwpProcessAllocOps (initial (fun _ => .null) fun _ => false) := by
  refine .cons_ok trivial rfl (.cons_ok ?_ rfl (.cons_ok ?_ rfl ⟨?_, fun _ h => ?_⟩))
  · exact ⟨by decide, rfl, fun () h => absurd h (by decide)⟩
  · exact ⟨by decide, by decide⟩
  · show has _ _ = true
    decide
  · trivial

/-- The operations of `jdwp_process_alloc` are a legal sequence, so the theorem decides them. -/
theorem flagSafe_iff_mirrors_jdwp :
    Along step Legal jdwpProcessAllocOps (initial (fun _ => .null) fun _ => false) ∧
    (Along step Mirrors jdwpProcessAllocOps (initial (fun _ => .null) fun _ => false) ↔
      Along step FlagSafe jdwpProcessAllocOps (initial (fun _ => .null) fun _ => false)) :=
  ⟨jdwpProcessAllocOps_legal, flagSafe_iff_mirrors _ _ _ jdwpProcessAllocOps_legal⟩

/-- The JDWP socket is flagged and then subscribed to `FDE_READ`: `epoll_ctl` is asked to modify
a descriptor that was never added, and the daemon exits. -/
theorem jdwpProcessAlloc_not_mirrored :
    Along step Legal jdwpProcessAllocOps (initial (fun _ => .null) fun _ => false) ∧
    ¬Along step Mirrors jdwpProcessAllocOps (initial (fun _ => .null) fun _ => false) ∧
    run step jdwpProcessAllocOps (initial (fun _ => .null) fun _ => false) =
      .error (.epollCtl 5) := by
  refine ⟨jdwpProcessAllocOps_legal, fun h => ?_, rfl⟩
  -- the first three operations succeed, the fourth is the failing `EPOLL_CTL_MOD`
  have hlast := (((h.2 _ rfl).2 _ rfl).2 _ rfl).1
  exact absurd rfl (hlast 5)

end EpollMirror

end Adbd
