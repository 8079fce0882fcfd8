import Adbd.Effects.PeerGraph

/-!
# The event loop beside the sockets

What the event loop and the kernel refer to is installed, and what is installed is alive.  The
statement is about a set `K` of `fdevent`s: the `auth_fde`s, which `transport_registration_func`
forgets when it frees a transport, only belong to it in runs that spare them.  That an installed
`fdevent` is found in `fd_table` and in the interest list is left out: a descriptor closed
behind its owner's back loses both.
-/

namespace Adbd

open Function FlagWord Loop

/-- The loop `L` is consistent with the sockets `S` and the live transports `T`. -/
structure LoopWf (K : Set FdeId) (X : Set Addr) (S : Addr → Option Asocket) (T : TAddr → Bool)
    (L : Loop FdeId) : Prop where
  covers : ∀ a, FdeId.socket a ∈ K
  kernel : ∀ n e, L.interest n = some e → L.inUse n = true
  wild : ∀ i k, L.fill i ≠ .fde k
  pending : ∀ k, k ∈ L.listPending → k ∈ K →
    L.Installed k ∧ has (L.mem k).state fdePending = true ∧ L.listPending.count k ≤ 1
  entry : ∀ n m k, L.interest n = some (m, k) → k ∈ K →
    L.Installed k ∧ (L.mem k).fd = n ∧ m = epollMask (L.mem k).state
  slot : ∀ n k, L.fdTable n = .fde k → k ∈ K → L.Installed k ∧ (L.mem k).fd = n
  socket : ∀ a, L.Installed (.socket a) →
    ∃ s, S a = some s ∧ s.ops.isFd = true ∧ (L.mem (.socket a)).fd = s.fd
  installed : ∀ a s, a ∉ X → S a = some s → s.ops.isFd = true → L.Installed (.socket a)
  transport : ∀ t, L.Installed (.transport t) → T t = true
  low : ∀ a, has (L.mem (.socket a)).state 0x00fc#16 = false
  noProcess : ∀ i, ¬L.Installed (.jdwpProcess i)
  idle : ∀ a, ¬L.Installed (.socket a) →
    (L.mem (.socket a)).state = 0#16 ∧ (L.mem (.socket a)).events = 0#16
  /-- A pending read event is asked for, or forced by the exit of a shell, or left over by the
  `fdevent_del` of a socket that is closing. -/
  reading : ∀ a, has (L.mem (.socket a)).events fdeRead = true →
    has (L.mem (.socket a)).state fdeRead = true ∨ (L.mem (.socket a)).forceEof = true ∨
      ∃ s, S a = some s ∧ s.closing = true

namespace LoopWf

variable {K : Set FdeId} {X : Set Addr} {S : Addr → Option Asocket} {T : TAddr → Bool}
  {L L' : Loop FdeId} {k : FdeId} {a : Addr}

lemma nonzero_eq_false {m : EpollMask} (h : m.nonzero = false) : m = ⟨false, false, false⟩ := by
  obtain ⟨i, o, e⟩ := m
  simp only [EpollMask.nonzero, Bool.or_eq_false_iff] at h
  obtain ⟨⟨rfl, rfl⟩, rfl⟩ := h
  rfl

lemma mask_zero_of_low {x : BitVec 16} (h : has x fdeEventMask = false) :
    (epollMask x).nonzero = false := by
  rw [has_eventMask] at h
  exact (Bool.or_eq_false_iff.mp h).1

/-- `fdevent_set`, with no other flag than the events, and not dropping a subscription that a
pending event relies on. -/
lemma set {ev : BitVec 16} (h : LoopWf K X S T L) (hset : SetSpec k ev L L')
    (hlow : ∀ a, k = .socket a → L.Installed k ∧ has ev 0x00fc#16 = false)
    (hread : ∀ a, k = .socket a → has (L.mem k).events fdeRead = true →
      has ev fdeRead = true ∨ (L.mem k).forceEof = true ∨ ∃ s, S a = some s ∧ s.closing = true) :
    LoopWf K X S T L' := by
  have hmem := hset.mem_other
  have hinst : ∀ j, L'.Installed j ↔ L.Installed j := by
    intro j
    by_cases hj : j = k
    · rw [Installed, Installed, hj, hset.active]
    · rw [Installed, Installed, hmem j hj]
  have hfd : ∀ j, (L'.mem j).fd = (L.mem j).fd := by
    intro j
    by_cases hj : j = k
    · rw [hj, hset.fd]
    · rw [hmem j hj]
  -- reading bits below the event mask off the new state word
  have hbit : ∀ m, fdeEventMask &&& m = m → has (L'.mem k).state m = has ev m := by
    intro m hm
    rw [has_congr (hset.low) hm]
  refine ⟨h.covers, ?_, ?_, ?_, ?_, ?_, ?_, ?_, ?_, ?_, ?_, ?_, ?_⟩
  · intro n e he
    rw [hset.inUse]
    by_cases hn : n = (L.mem k).fd
    · subst hn
      rcases hset.opened e he with hopen | hsome
      · exact hopen
      · obtain ⟨e', he'⟩ := Option.isSome_iff_exists.mp hsome
        exact h.kernel _ e' he'
    · rw [hset.interest_other n hn] at he
      exact h.kernel n e he
  · rw [hset.fill]
    exact h.wild
  · intro j hj hK
    rcases hset.pending with ⟨hlist, hflag⟩ | ⟨hlist, -⟩
    · rw [hlist] at hj ⊢
      obtain ⟨hin, hpend, hcount⟩ := h.pending j hj hK
      refine ⟨(hinst j).mpr hin, ?_, hcount⟩
      by_cases hjk : j = k
      · rw [hjk, hflag, ← hjk]
        exact hpend
      · rw [hmem j hjk]
        exact hpend
    · rw [hlist] at hj ⊢
      obtain ⟨hin, hpend, hcount⟩ := h.pending j (List.mem_of_mem_erase hj) hK
      have hjk : j ≠ k := by
        rintro rfl
        have hzero : (L.listPending.erase j).count j = 0 := by
          rw [List.count_erase_self]
          omega
        exact List.count_eq_zero.mp hzero hj
      refine ⟨(hinst j).mpr hin, by rw [hmem j hjk]; exact hpend, ?_⟩
      rw [List.count_erase_of_ne hjk]
      exact hcount
  · intro n m j he hK
    by_cases hn : n = (L.mem k).fd
    · subst hn
      rcases hset.interest_self m j he with ⟨hold, rfl⟩ | ⟨hold, hz⟩ | ⟨rfl, rfl, hact⟩
      · exact h.entry _ m j hold hK
      · obtain ⟨hin, hjfd, hm⟩ := h.entry _ m j hold hK
        refine ⟨(hinst j).mpr hin, (hfd j).trans hjfd, ?_⟩
        by_cases hj : j = k
        · -- the entry is this one's own, so it was there for an empty subscription
          subst hj
          rcases hz with ⟨hev, hst⟩ | hact
          · rw [hm, nonzero_eq_false (mask_zero_of_low hst), epollMask_congr hset.low,
              nonzero_eq_false hev]
          · exact absurd hin (by rw [Installed, hact]; decide)
        · rw [hmem j hj]
          exact hm
      · exact ⟨(hinst j).mpr hact, hfd j, (epollMask_congr hset.low).symm⟩
    · rw [hset.interest_other n hn] at he
      obtain ⟨hin, hjfd, hm⟩ := h.entry n m j he hK
      have hj : j ≠ k := fun hjk => hn (by rw [← hjfd, hjk])
      exact ⟨(hinst j).mpr hin, (hfd j).trans hjfd, by rw [hmem j hj]; exact hm⟩
  · intro n j hj hK
    rw [hset.fdTable] at hj
    obtain ⟨hin, hjfd⟩ := h.slot n j hj hK
    exact ⟨(hinst j).mpr hin, (hfd j).trans hjfd⟩
  · intro b hb
    rw [hfd]
    exact h.socket b ((hinst _).mp hb)
  · intro b s hbX hb hops
    exact (hinst _).mpr (h.installed b s hbX hb hops)
  · intro t ht
    exact h.transport t ((hinst _).mp ht)
  · intro b
    by_cases hb : FdeId.socket b = k
    · rw [hb, hbit _ (by decide)]
      exact (hlow b hb.symm).2
    · rw [hmem _ hb]
      exact h.low b
  · intro i hi
    exact h.noProcess i ((hinst _).mp hi)
  · intro b hb
    have hidle : ¬L.Installed (.socket b) := fun hin => hb ((hinst _).mpr hin)
    have hbk : FdeId.socket b ≠ k := fun hbk => hidle (hbk ▸ (hlow b hbk.symm).1)
    rw [hmem _ hbk]
    exact h.idle b hidle
  · intro b hb
    by_cases hbk : FdeId.socket b = k
    · rw [hbk] at hb ⊢
      rw [hbit _ (by decide), hset.forceEof]
      exact hread b hbk.symm (hset.events _ hb)
    · rw [hmem _ hbk] at hb ⊢
      exact h.reading b hb

/-- `fdevent_remove`, for a socket that is being taken apart or for anything else. -/
lemma remove (h : LoopWf K X S T L) (hrem : RemoveSpec k L L')
    (ha : ∀ a, k = .socket a → a ∈ X) : LoopWf K X S T L' := by
  have hmem := hrem.mem_other
  have hzero : ∀ m : BitVec 16, has 0#16 m = false := fun m => has_zero_left m
  have hk : ¬L'.Installed k := by
    rw [Installed, hrem.mem_self, hzero]
    decide
  have hinst : ∀ j, L'.Installed j ↔ L.Installed j ∧ j ≠ k := by
    intro j
    by_cases hj : j = k
    · subst hj
      simp [hk]
    · simp [Installed, hmem j hj, hj]
  refine ⟨h.covers, ?_, ?_, ?_, ?_, ?_, ?_, ?_, ?_, ?_, ?_, ?_, ?_⟩
  · intro n e he
    have hold := hrem.interest_sub n e he
    by_cases hn : n = (L.mem k).fd
    · by_cases hin : L.Installed k
      · rw [hn, hrem.interest_self hin] at he
        cases he
      · rw [(hrem.idle hin).1]
        exact h.kernel n e hold
    · rw [hrem.inUse_other n hn]
      exact h.kernel n e hold
  · rw [hrem.fill]
    exact h.wild
  · intro j hj hK
    have hlist := hrem.pending
    by_cases hjk : j = k
    · -- it was pending once at most, and is not any more
      subst hjk
      exfalso
      by_cases hpend : has (L.mem j).state fdePending = true
      · rw [hlist, if_pos hpend] at hj
        obtain ⟨-, -, hcount⟩ := h.pending j (List.mem_of_mem_erase hj) hK
        have hzero : (L.listPending.erase j).count j = 0 := by
          rw [List.count_erase_self]
          omega
        exact List.count_eq_zero.mp hzero hj
      · rw [hlist, if_neg hpend] at hj
        exact hpend (h.pending j hj hK).2.1
    · have hold : j ∈ L.listPending := by
        rw [hlist] at hj
        split at hj
        · exact List.mem_of_mem_erase hj
        · exact hj
      obtain ⟨hin, hpend, hcount⟩ := h.pending j hold hK
      refine ⟨(hinst j).mpr ⟨hin, hjk⟩, by rw [hmem j hjk]; exact hpend, ?_⟩
      rw [hlist]
      split
      · rw [List.count_erase_of_ne hjk]
        exact hcount
      · exact hcount
  · intro n m j he hK
    obtain ⟨hin, hfd, hm⟩ := h.entry n m j (hrem.interest_sub n _ he) hK
    have hj : j ≠ k := by
      rintro rfl
      rw [← hfd, hrem.interest_self hin] at he
      cases he
    rw [hmem j hj]
    exact ⟨(hinst j).mpr ⟨hin, hj⟩, hfd, hm⟩
  · intro n j hj hK
    by_cases hn : n = (L.mem k).fd
    · by_cases hin : L.Installed k
      · rw [hn, hrem.fdTable_self hin] at hj
        cases hj
      · rw [(hrem.idle hin).2.2] at hj
        obtain ⟨hjin, hfd⟩ := h.slot n j hj hK
        have hne : j ≠ k := fun hjk => hin (hjk ▸ hjin)
        rw [hmem j hne]
        exact ⟨(hinst j).mpr ⟨hjin, hne⟩, hfd⟩
    · rw [hrem.fdTable_other n hn] at hj
      obtain ⟨hjin, hfd⟩ := h.slot n j hj hK
      have hne : j ≠ k := fun hjk => hn (by rw [← hfd, hjk])
      rw [hmem j hne]
      exact ⟨(hinst j).mpr ⟨hjin, hne⟩, hfd⟩
  · intro b hb
    obtain ⟨hin, hne⟩ := (hinst _).mp hb
    rw [hmem _ hne]
    exact h.socket b hin
  · intro b s hbX hb hops
    exact (hinst _).mpr ⟨h.installed b s hbX hb hops, fun hbk => hbX (ha b hbk.symm)⟩
  · intro t ht
    exact h.transport t ((hinst _).mp ht).1
  · intro b
    by_cases hb : FdeId.socket b = k
    · rw [hb, hrem.mem_self]
      exact hzero _
    · rw [hmem _ hb]
      exact h.low b
  · intro i hi
    exact h.noProcess i ((hinst _).mp hi).1
  · intro b hb
    by_cases hbk : FdeId.socket b = k
    · rw [hbk, hrem.mem_self]
      exact ⟨rfl, rfl⟩
    · rw [hmem _ hbk]
      exact h.idle b fun hin => hb ((hinst _).mpr ⟨hin, hbk⟩)
  · intro b hb
    by_cases hbk : FdeId.socket b = k
    · rw [hbk, hrem.mem_self, hzero] at hb
      cases hb
    · rw [hmem _ hbk] at hb ⊢
      exact h.reading b hb

/-- Closing a descriptor, by whoever. -/
lemma close (h : LoopWf K X S T L) (n : ℕ) : LoopWf K X S T (L.adbClose n) := by
  refine { h with kernel := ?_, entry := ?_ }
  · intro i e he
    by_cases hi : i = n
    · simp [adbClose, hi] at he
    · simp only [adbClose, update_of_ne hi] at he ⊢
      exact h.kernel i e he
  · intro i m j he hK
    by_cases hi : i = n
    · simp [adbClose, hi] at he
    · simp only [adbClose, update_of_ne hi] at he
      exact h.entry i m j he hK

/-- A new descriptor. -/
lemma opened (h : LoopWf K X S T L) (n : ℕ) :
    LoopWf K X S T { L with inUse := update L.inUse n true } := by
  refine { h with kernel := ?_ }
  intro i e he
  by_cases hi : i = n
  · simp [hi]
  · simpa [update_of_ne hi] using h.kernel i e he

/-- Rewriting an `fdevent` in place: the flags that count stay, and events can only become
pending for a reason. -/
lemma setMem (h : LoopWf K X S T L) {f : Fdevent} (hfd : L.Installed k → f.fd = (L.mem k).fd)
    (hact : has f.state fdeActive = has (L.mem k).state fdeActive)
    (hlow : f.state &&& fdeEventMask = (L.mem k).state &&& fdeEventMask)
    (hpend : k ∈ L.listPending → k ∈ K → has f.state fdePending = true)
    (hidle : ∀ a, k = .socket a → ¬L.Installed k → f.state = 0#16 ∧ f.events = 0#16)
    (hread : ∀ a, k = .socket a → has f.events fdeRead = true →
      has f.state fdeRead = true ∨ f.forceEof = true ∨ ∃ s, S a = some s ∧ s.closing = true) :
    LoopWf K X S T (L.setMem k f) := by
  have hmem : ∀ j, j ≠ k → (L.setMem k f).mem j = L.mem j := fun j hj => setMem_mem_of_ne hj ..
  have hinst : ∀ j, (L.setMem k f).Installed j ↔ L.Installed j := by
    intro j
    by_cases hj : j = k
    · rw [Installed, Installed, hj, setMem_mem_self, hact]
    · rw [Installed, Installed, hmem j hj]
  have hfds : ∀ j, L.Installed j → ((L.setMem k f).mem j).fd = (L.mem j).fd := by
    intro j hin
    by_cases hj : j = k
    · subst hj
      rw [setMem_mem_self, hfd hin]
    · rw [hmem j hj]
  have hmask : ∀ j, epollMask ((L.setMem k f).mem j).state = epollMask (L.mem j).state := by
    intro j
    by_cases hj : j = k
    · rw [hj, setMem_mem_self, epollMask_congr hlow]
    · rw [hmem j hj]
  refine ⟨h.covers, h.kernel, h.wild, ?_, ?_, ?_, ?_, ?_, ?_, ?_, ?_, ?_, ?_⟩
  · intro j hj hK
    obtain ⟨hin, hjpend, hcount⟩ := h.pending j hj hK
    refine ⟨(hinst j).mpr hin, ?_, hcount⟩
    by_cases hjk : j = k
    · subst hjk
      rw [setMem_mem_self]
      exact hpend hj hK
    · rw [hmem j hjk]
      exact hjpend
  · intro n m j he hK
    obtain ⟨hin, hjfd, hm⟩ := h.entry n m j he hK
    exact ⟨(hinst j).mpr hin, (hfds j hin).trans hjfd, hm.trans (hmask j).symm⟩
  · intro n j hj hK
    obtain ⟨hin, hjfd⟩ := h.slot n j hj hK
    exact ⟨(hinst j).mpr hin, (hfds j hin).trans hjfd⟩
  · intro b hb
    rw [hfds _ ((hinst _).mp hb)]
    exact h.socket b ((hinst _).mp hb)
  · intro b s hbX hb hops
    exact (hinst _).mpr (h.installed b s hbX hb hops)
  · intro t ht
    exact h.transport t ((hinst _).mp ht)
  · intro b
    by_cases hb : FdeId.socket b = k
    · rw [hb, setMem_mem_self, has_congr hlow (by decide), ← hb]
      exact h.low b
    · rw [hmem _ hb]
      exact h.low b
  · intro i hi
    exact h.noProcess i ((hinst _).mp hi)
  · intro b hb
    have hb' : ¬L.Installed (.socket b) := fun hin => hb ((hinst _).mpr hin)
    by_cases hbk : FdeId.socket b = k
    · rw [hbk, setMem_mem_self]
      exact hidle b hbk.symm (hbk ▸ hb')
    · rw [hmem _ hbk]
      exact h.idle b hb'
  · intro b hb
    by_cases hbk : FdeId.socket b = k
    · rw [hbk, setMem_mem_self] at hb ⊢
      exact hread b hbk.symm hb
    · rw [hmem _ hbk] at hb ⊢
      exact h.reading b hb

/-! ## The sockets change -/

/-- More sockets are being worked on. -/
lemma mono {Y : Set Addr} (h : LoopWf K X S T L) (hXY : X ⊆ Y) : LoopWf K Y S T L :=
  { h with installed := fun b s hb => h.installed b s fun hX => hb (hXY hX) }

/-- Rewriting a socket, which keeps its descriptor and does not stop closing; it may be one that
was being worked on and is done. -/
lemma data {Y : Set Addr} {s s' : Asocket} (h : LoopWf K X S T L) (hs : S a = some s)
    (hops : s'.ops.isFd = s.ops.isFd) (hfd : s'.fd = s.fd)
    (hclosing : s.closing = true → s'.closing = true) (hXY : ∀ b, b ≠ a → b ∈ X → b ∈ Y)
    (hin : a ∈ X → a ∉ Y → s.ops.isFd = true → L.Installed (.socket a)) :
    LoopWf K Y (update S a (some s')) T L := by
  refine { h with socket := ?_, installed := ?_, reading := ?_ }
  · intro b hb
    obtain ⟨q, hq, hqops, hqfd⟩ := h.socket b hb
    grind [update_apply]
  · intro b q hbY hb hq
    by_cases hba : b = a
    · subst hba
      grind [h.installed b s, update_apply]
    · rw [update_of_ne hba] at hb
      exact h.installed b q (fun hX => hbY (hXY b hba hX)) hb hq
  · intro b hb
    rcases h.reading b hb with hread | hforce | ⟨q, hq, hqc⟩
    · exact .inl hread
    · exact .inr (.inl hforce)
    · refine .inr (.inr ?_)
      grind [update_apply]

/-- Freeing a socket whose `fdevent` is not installed. -/
lemma freed (h : LoopWf K X S T L) (hin : ¬L.Installed (.socket a)) :
    LoopWf K (X \ {a}) (update S a none) T L := by
  refine { h with socket := ?_, installed := ?_, reading := ?_ }
  · intro b hb
    have hba : b ≠ a := fun hba => hin (hba ▸ hb)
    rw [update_of_ne hba]
    exact h.socket b hb
  · intro b q hbX hb hq
    have hba : b ≠ a := by
      rintro rfl
      simp at hb
    rw [update_of_ne hba] at hb
    exact h.installed b q (fun hX => hbX ⟨hX, hba⟩) hb hq
  · intro b hb
    have hba : b ≠ a := by
      rintro rfl
      rw [(h.idle b hin).2, has_zero_left] at hb
      cases hb
    rw [update_of_ne hba]
    exact h.reading b hb

/-- A new socket, whose `fdevent` is zeroed. -/
lemma alloc {N : Addr} {s : Asocket} (h : LoopWf K X S T L) (hN : S N = none)
    (hops : s.ops.isFd = true → N ∈ X) :
    LoopWf K X (update S N (some s)) T (L.setMem (.socket N) {}) := by
  have hidle : ¬L.Installed (.socket N) := by
    intro hin
    obtain ⟨q, hq, -⟩ := h.socket N hin
    rw [hN] at hq
    cases hq
  have hzero := h.idle N hidle
  have hset : LoopWf K X S T (L.setMem (.socket N) {}) := by
    refine h.setMem (fun hin => absurd hin hidle) ?_ ?_ ?_ ?_ ?_
    · rw [hzero.1]
    · rw [hzero.1]
    · intro hpend hK
      exact absurd (h.pending _ hpend hK).1 hidle
    · intro b _ _
      exact ⟨rfl, rfl⟩
    · intro b _ hread
      cases hread
  refine { hset with socket := ?_, installed := ?_, reading := ?_ }
  · intro b hb
    obtain ⟨q, hq, hqops, hqfd⟩ := hset.socket b hb
    have hbN : b ≠ N := by
      rintro rfl
      rw [hN] at hq
      cases hq
    exact ⟨q, by rw [update_of_ne hbN, hq], hqops, hqfd⟩
  · intro b q hbX hb hq
    have hbN : b ≠ N := by
      rintro rfl
      rw [update_self, Option.some.injEq] at hb
      subst hb
      exact hbX (hops hq)
    rw [update_of_ne hbN] at hb
    exact hset.installed b q hbX hb hq
  · intro b hb
    rcases hset.reading b hb with hread | hforce | ⟨q, hq, hqc⟩
    · exact .inl hread
    · exact .inr (.inl hforce)
    · refine .inr (.inr ⟨q, ?_, hqc⟩)
      grind [update_apply]

/-! ## Installing -/

/-- `fdevent_install` of an `fdevent` that is not installed, or does not belong to `K`. -/
lemma install {n : ℕ} (h : LoopWf K X S T L) (hins : L.fdeventInstall k n = .ok L')
    (hk : k ∈ K → ¬L.Installed k)
    (hsock : ∀ a, k = .socket a → ∃ s, S a = some s ∧ s.ops.isFd = true ∧ n = s.fd)
    (htr : ∀ t, k = .transport t → T t = true) (hproc : ∀ i, k ≠ .jdwpProcess i) :
    LoopWf K X S T L' := by
  obtain ⟨U, M, rfl, hU, hUother⟩ := fdeventInstall_ok hins
  have hmem : ∀ j, j ≠ k →
      (L.setMem k { fd := n, state := fdeActive }).mem j = L.mem j :=
    fun j hj => setMem_mem_of_ne hj ..
  have hmemk : (L.setMem k { fd := n, state := fdeActive }).mem k =
      { fd := n, state := fdeActive } := setMem_mem_self ..
  have hne : ∀ j, j ∈ K → L.Installed j → j ≠ k := by
    rintro j hK hin rfl
    exact hk hK hin
  have hinst : ∀ j, j ≠ k → (has ((L.setMem k { fd := n, state := fdeActive }).mem j).state
      fdeActive = true ↔ L.Installed j) := by
    intro j hj
    rw [hmem j hj, Installed]
  refine ⟨h.covers, h.kernel, h.wild, ?_, ?_, ?_, ?_, ?_, ?_, ?_, ?_, ?_, ?_⟩
  · intro j hj hK
    obtain ⟨hin, hpend, hcount⟩ := h.pending j hj hK
    have hjk := hne j hK hin
    exact ⟨(hinst j hjk).mpr hin, by simpa [hmem j hjk] using hpend, hcount⟩
  · intro i m j he hK
    obtain ⟨hin, hfd, hm⟩ := h.entry i m j he hK
    have hjk := hne j hK hin
    refine ⟨(hinst j hjk).mpr hin, ?_, ?_⟩
    · simpa [hmem j hjk] using hfd
    · simpa [hmem j hjk] using hm
  · intro i j hj hK
    by_cases hin : i = n
    · subst hin
      have hjk : j = k := by
        have := hU.symm.trans hj
        cases this
        rfl
      subst hjk
      simp [Installed]
      decide
    · rcases hUother i j hin hj with hold | hfill
      · obtain ⟨hjin, hfd⟩ := h.slot i j hold hK
        have hjk := hne j hK hjin
        exact ⟨(hinst j hjk).mpr hjin, by simpa [hmem j hjk] using hfd⟩
      · exact absurd hfill (h.wild i j)
  · intro b hb
    by_cases hbk : FdeId.socket b = k
    · obtain ⟨s, hs, hops, hfd⟩ := hsock b hbk.symm
      refine ⟨s, hs, hops, ?_⟩
      rw [hbk, ← hfd]
      simp
    · rw [hmem _ hbk]
      exact h.socket b ((hinst _ hbk).mp hb)
  · intro b s hbX hb hops
    by_cases hbk : FdeId.socket b = k
    · rw [hbk]
      simp [Installed]
      decide
    · exact (hinst _ hbk).mpr (h.installed b s hbX hb hops)
  · intro t ht
    by_cases htk : FdeId.transport t = k
    · exact htr t htk.symm
    · exact h.transport t ((hinst _ htk).mp ht)
  · intro b
    by_cases hbk : FdeId.socket b = k
    · rw [hbk, hmemk]
      exact show has fdeActive 0x00fc#16 = false by decide
    · rw [hmem _ hbk]
      exact h.low b
  · intro i hi
    have hik : FdeId.jdwpProcess i ≠ k := (hproc i).symm
    exact h.noProcess i ((hinst _ hik).mp hi)
  · intro b hb
    by_cases hbk : FdeId.socket b = k
    · exfalso
      apply hb
      rw [hbk, Installed]
      simp
      decide
    · rw [hmem _ hbk]
      exact h.idle b fun hin => hb ((hinst _ hbk).mpr hin)
  · intro b hb
    by_cases hbk : FdeId.socket b = k
    · rw [hbk, hmemk] at hb
      exact absurd hb (by rw [has_zero_left]; decide)
    · rw [hmem _ hbk] at hb ⊢
      exact h.reading b hb

/-! ## The pending list -/

/-- One iteration of `fdevent_process`, on an entry of the interest list. -/
lemma report {n : ℕ} {ev mask : EpollMask} (h : LoopWf K X S T L)
    (he : L.interest n = some (mask, k)) (hev : Daemon.reportable ev mask = true) :
    LoopWf K X S T (L.fdeventReport k ev) := by
  have hread : k ∈ K → has ((L.mem k).events ||| fdeEvents ev) fdeRead = true →
      has (L.mem k).events fdeRead = true ∨ has (L.mem k).state fdeRead = true := by
    intro hK hr
    rw [has_or, Bool.or_eq_true] at hr
    rcases hr with hr | hr
    · exact .inl hr
    · right
      obtain ⟨-, -, hm⟩ := h.entry n mask k he hK
      have hin : ev.pollIn = true := by
        by_contra hno
        obtain ⟨i, o, r⟩ := ev
        simp only [Bool.not_eq_true] at hno
        subst hno
        revert hr
        cases o <;> cases r <;> decide
      have : mask.pollIn = true := by
        rw [Daemon.reportable, hin] at hev
        simpa using (Bool.and_eq_true_iff.mp hev).1
      rw [hm] at this
      exact this
  set f : Fdevent := { L.mem k with events := (L.mem k).events ||| fdeEvents ev } with hf
  have hidle : ∀ a, k = .socket a → ¬L.Installed k → False := by
    rintro a rfl hin
    exact hin (h.entry n mask _ he (h.covers a)).1
  have hset : ∀ g : Fdevent, g.fd = (L.mem k).fd →
      has g.state fdeActive = has (L.mem k).state fdeActive →
      g.state &&& fdeEventMask = (L.mem k).state &&& fdeEventMask →
      (has (L.mem k).state fdePending = true → has g.state fdePending = true) →
      g.events = f.events → g.forceEof = f.forceEof → LoopWf K X S T (L.setMem k g) := by
    intro g hfd hact hlow hpend hevents hforce
    refine h.setMem (fun _ => hfd) hact hlow ?_ ?_ ?_
    · intro hk hK
      exact hpend (h.pending k hk hK).2.1
    · intro a ha hin
      exact absurd hin fun hin => hidle a ha hin
    · rintro a rfl hr
      rw [hevents] at hr
      rw [hforce, has_congr hlow (by decide)]
      rcases hread (h.covers a) hr with hold | hsub
      · exact h.reading a hold
      · exact .inl hsub
  unfold fdeventReport
  simp only
  rw [← hf]
  split
  · exact hset f rfl rfl rfl (fun h => h) rfl rfl
  split
  · exact hset f rfl rfl rfl (fun h => h) rfl rfl
  case isFalse hz hpend =>
    -- not pending, so not on the list: it is appended with its flag
    have hnot : k ∈ K → k ∉ L.listPending :=
      fun hK hk => hpend (h.pending k hk hK).2.1
    have hpended : LoopWf K X S T (L.setMem k { f with state := f.state ||| fdePending }) := by
      refine hset _ rfl ?_ ?_ (fun _ => ?_) rfl rfl
      · rw [has_or, show has fdePending fdeActive = false by decide, Bool.or_false]
      · have : fdePending &&& fdeEventMask = 0#16 := by decide
        rw [BitVec.and_or_distrib_right, this]
        simp [hf]
      · rw [has_or, show has fdePending fdePending = true by decide, Bool.or_true]
    have heq : ((L.setMem k f).setMem k { f with state := f.state ||| fdePending }) =
        L.setMem k { f with state := f.state ||| fdePending } := by
      simp [Loop.setMem]
    rw [heq]
    refine { hpended with pending := ?_ }
    intro j hj hK
    have hmem : j ∈ L.listPending ∨ j = k := by
      simpa [fdeventPlistEnqueue, Loop.setMem] using hj
    by_cases hjk : j = k
    · subst hjk
      refine ⟨?_, ?_, ?_⟩
      · have hin := (h.entry n mask j he hK).1
        rw [Installed] at hin ⊢
        simp only [fdeventPlistEnqueue, setMem_mem_self, has_or]
        rw [show f.state = (L.mem j).state from rfl, hin, Bool.true_or]
      · simp only [fdeventPlistEnqueue, setMem_mem_self, has_or]
        rw [show has fdePending fdePending = true by decide, Bool.or_true]
      · have := List.count_eq_zero.mpr (hnot hK)
        simp only [fdeventPlistEnqueue, Loop.setMem, List.count_append, this]
        simp
    · obtain ⟨hin, hp, hcount⟩ := hpended.pending j (hmem.resolve_right hjk) hK
      refine ⟨hin, hp, ?_⟩
      have : List.count j [k] = 0 := List.count_eq_zero.mpr (by simpa using hjk)
      simp only [fdeventPlistEnqueue, Loop.setMem, List.count_append, this] at hcount ⊢
      omega

/-- The head of the pending list goes, with its flag and its events. -/
lemma dispatch (h : LoopWf K X S T L) (hd : L.fdeventPlistDequeue = some (k, L')) :
    LoopWf K X S T (L'.fdeventCallFdfunc k).2 := by
  unfold fdeventPlistDequeue at hd
  split at hd
  · cases hd
  case h_2 j rest hlist =>
    cases hd
    have hrest : LoopWf K X S T { L with listPending := rest } := by
      refine { h with pending := ?_ }
      intro i hi hK
      obtain ⟨hin, hpend, hcount⟩ := h.pending i (hlist ▸ List.mem_cons_of_mem _ hi) hK
      refine ⟨hin, hpend, ?_⟩
      rw [hlist, List.count_cons] at hcount
      exact Nat.le_of_add_right_le hcount
    -- it was pending once, so its flag is not needed any more
    have hgone : k ∈ K → k ∉ rest := by
      intro hK
      obtain ⟨-, -, hcount⟩ := h.pending k (hlist ▸ List.mem_cons_self) hK
      rw [hlist, List.count_cons_self] at hcount
      have hzero : rest.count k = 0 := by omega
      exact List.count_eq_zero.mp hzero
    have hidle : ∀ a, k = .socket a → ¬L.Installed k → (L.mem k).state = 0#16 := by
      rintro a rfl hin
      exact (h.idle a hin).1
    unfold fdeventCallFdfunc
    simp only
    split
    · refine hrest.setMem (fun _ => rfl) ?_ ?_ ?_ ?_ ?_
      · exact has_and_not_of_disjoint (by decide)
      · have : ~~~fdePending &&& fdeEventMask = fdeEventMask := by decide
        simp only [BitVec.and_assoc, this]
      · intro hmem hK
        exact absurd hmem (hgone hK)
      · intro a ha hin
        simp [hidle a ha hin]
      · intro a ha hr
        exact absurd hr (by rw [has_zero_left]; decide)
    · refine hrest.setMem (fun _ => rfl) rfl rfl ?_ ?_ ?_
      · intro hmem hK
        exact absurd hmem (hgone hK)
      · intro a ha hin
        exact ⟨hidle a ha hin, rfl⟩
      · intro a ha hr
        exact absurd hr (by rw [has_zero_left]; decide)

/-- The shell-exit handler marks the `fdevent` it finds in the table. -/
lemma force {n : ℕ} {ev : BitVec 16} (h : LoopWf K X S T L) (hk : L.fdTable n = .fde k) :
    LoopWf K X S T (L.setMem k { L.mem k with forceEof := true, events := ev }) := by
  refine h.setMem (fun _ => rfl) rfl rfl ?_ ?_ ?_
  · intro hmem hK
    exact (h.pending k hmem hK).2.1
  · rintro a rfl hin
    exact absurd (h.slot n _ hk (h.covers a)).1 hin
  · intro a _ _
    exact .inr (.inl rfl)

/-! ## The transports change -/

lemma transports {T' : TAddr → Bool} (h : LoopWf K X S T L)
    (hT : ∀ t, L.Installed (.transport t) → T t = true → T' t = true) : LoopWf K X S T' L :=
  { h with transport := fun t ht => hT t ht (h.transport t ht) }

end LoopWf

end Adbd
