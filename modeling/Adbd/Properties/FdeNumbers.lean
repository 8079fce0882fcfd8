import Adbd.Effects.Linked
import Adbd.Properties.FdTable

/-!
# The numbers of the `fdevent`s

An `fdevent` is installed with a descriptor number.  `fd_table` has one slot for each number and
the kernel one entry, so two `fdevent`s with one number would be in each other's way: the table
knows the later one only, and `fdevent_remove` ends the daemon if it finds another one there.

## Keys that wait for the framework

All `auth_fde`s are installed with `framework_fd`, the number of one connection that the hosts
share.  While the key of one host waits for an answer, the key of another would take its slot.  It
does not come to that: the first `auth_fde` is subscribed, so the kernel watches the number, and
`EPOLL_CTL_ADD` for the second one fails with `EEXIST`, upon which the daemon exits.

`Waiting` says that each `auth_fde` that is installed is in the table and watched, and the lemmas
say what an operation has to leave alone for it to stay so.
-/

namespace Adbd

open Function FlagWord Transition

namespace Loop

/-! ## Which number an `fdevent` has -/

/-- The `fdevent` is installed with the number. -/
structure Uses (k : FdeId) (n : ℕ) (L : Loop FdeId) : Prop where
  installed : L.Installed k
  fd : (L.mem k).fd = n

variable {L L' M : Loop FdeId} {j k : FdeId} {n i : ℕ} {ev : BitVec 16} {t u : TAddr}

/-- Assigning to the fields that neither the number nor the active flag is in. -/
lemma uses_setMem {f : Fdevent} (h : (L.setMem j f).Uses k n) (hfd : f.fd = (L.mem j).fd)
    (hactive : has f.state fdeActive = has (L.mem j).state fdeActive) : L.Uses k n := by
  refine ⟨(installed_setMem hactive k).mp h.installed, ?_⟩
  have hn := h.fd
  by_cases hkj : k = j
  · rw [hkj, setMem_mem_self] at hn
    rw [hkj, ← hfd, hn]
  · rwa [setMem_mem_of_ne hkj] at hn

/-- A zeroed `fdevent` has no number. -/
lemma uses_of_zeroed (h : (L.setMem j {}).Uses k n) : L.Uses k n := by
  obtain ⟨hin, hn⟩ := h
  by_cases hkj : k = j
  · rw [Installed, hkj, setMem_mem_self] at hin
    cases hin
  · rw [Installed, setMem_mem_of_ne hkj] at hin
    rw [setMem_mem_of_ne hkj] at hn
    exact ⟨hin, hn⟩

lemma SetSpec.uses (h : SetSpec j ev L L') (hu : L'.Uses k n) : L.Uses k n := by
  obtain ⟨hin, hn⟩ := hu
  by_cases hkj : k = j
  · subst hkj
    rw [Installed, h.active] at hin
    rw [h.fd] at hn
    exact ⟨hin, hn⟩
  · rw [Installed, h.mem_other k hkj] at hin
    rw [h.mem_other k hkj] at hn
    exact ⟨hin, hn⟩

/-- An `fdevent` that is removed uses nothing any more. -/
lemma RemoveSpec.uses (h : RemoveSpec j L L') (hu : L'.Uses k n) : L.Uses k n ∧ k ≠ j := by
  obtain ⟨hin, hn⟩ := hu
  have hkj : k ≠ j := by
    rintro rfl
    rw [Installed, h.mem_self, show has 0#16 fdeActive = false by decide] at hin
    cases hin
  rw [Installed, h.mem_other k hkj] at hin
  rw [h.mem_other k hkj] at hn
  exact ⟨⟨hin, hn⟩, hkj⟩

/-- An `fdevent` is installed with a number. -/
lemma uses_of_install (h : L.fdeventInstall j i = .ok L') (hu : L'.Uses k n) :
    L.Uses k n ∧ k ≠ j ∨ n = i ∧ k = j := by
  obtain ⟨T, M, rfl, -, -⟩ := fdeventInstall_ok h
  obtain ⟨hin, hn⟩ := hu
  change has ((L.setMem j _).mem k).state fdeActive = true at hin
  change ((L.setMem j _).mem k).fd = n at hn
  by_cases hkj : k = j
  · rw [hkj, setMem_mem_self] at hn
    exact .inr ⟨hn.symm, hkj⟩
  · rw [setMem_mem_of_ne hkj] at hin hn
    exact .inl ⟨⟨hin, hn⟩, hkj⟩

lemma uses_of_report (e : EpollMask) (h : (L.fdeventReport j e).Uses k n) : L.Uses k n := by
  have hpend : ∀ x : BitVec 16, has (x ||| fdePending) fdeActive = has x fdeActive := by
    intro x
    rw [has_or, show has fdePending fdeActive = false by decide, Bool.or_false]
  unfold fdeventReport at h
  simp only at h
  split at h
  · exact uses_setMem h rfl rfl
  split at h
  · exact uses_setMem h rfl rfl
  · have hlisted : Uses k n (setMem j _ (setMem j _ L)) := ⟨h.installed, h.fd⟩
    refine uses_setMem (uses_setMem hlisted ?_ ?_) rfl rfl
    · rw [setMem_mem_self]
    · rw [setMem_mem_self]
      exact hpend _

lemma uses_of_dispatch (h : L.fdeventPlistDequeue = some (j, L'))
    (hu : (L'.fdeventCallFdfunc j).2.Uses k n) : L.Uses k n := by
  obtain ⟨rest, -, rfl⟩ := fdeventPlistDequeue_eq h
  have hL : ({ L with listPending := rest } : Loop FdeId).Uses k n := by
    unfold fdeventCallFdfunc at hu
    simp only at hu
    split at hu
    · exact uses_setMem hu rfl (has_and_not_of_disjoint (by decide))
    · exact uses_setMem hu rfl rfl
  exact ⟨hL.installed, hL.fd⟩

lemma uses_of_open {I : ℕ → Bool} (h : ({ L with inUse := I } : Loop FdeId).Uses k n) :
    L.Uses k n := ⟨h.installed, h.fd⟩

lemma uses_of_close (h : (L.adbClose i).Uses k n) : L.Uses k n := ⟨h.installed, h.fd⟩

/-! What is left of the descriptor table. -/

lemma inUse_report (j : FdeId) (e : EpollMask) : (L.fdeventReport j e).inUse = L.inUse := by
  unfold fdeventReport
  simp only
  split
  · rfl
  split <;> rfl

lemma inUse_dispatch (h : L.fdeventPlistDequeue = some (j, L')) :
    (L'.fdeventCallFdfunc j).2.inUse = L.inUse := by
  obtain ⟨rest, -, rfl⟩ := fdeventPlistDequeue_eq h
  unfold fdeventCallFdfunc
  simp only
  split <;> rfl

/-! ## What an operation leaves alone -/

/-- The slot `n` of `fd_table` and what the kernel watches `n` for are as they were. -/
structure Spares (n : ℕ) (L L' : Loop FdeId) : Prop where
  max : L.fdTableMax ≤ L'.fdTableMax
  slot : n < L.fdTableMax → L'.fdTable n = L.fdTable n
  interest : L'.interest n = L.interest n

lemma Spares.trans (h : Spares n L M) (h' : Spares n M L') : Spares n L L' := by
  refine ⟨h.max.trans h'.max, fun hn => ?_, h'.interest.trans h.interest⟩
  exact (h'.slot (hn.trans_le h.max)).trans (h.slot hn)

lemma SetSpec.spares (h : SetSpec j ev L L') (hn : ∀ i, L.Uses j i → n ≠ i) : Spares n L L' := by
  refine ⟨h.fdTableMax.ge, fun _ => by rw [h.fdTable], ?_⟩
  by_cases hin : L.Installed j
  · exact h.interest_other n (hn _ ⟨hin, rfl⟩)
  · rw [h.idle hin]

lemma RemoveSpec.spares (h : RemoveSpec j L L') (hn : ∀ i, L.Uses j i → n ≠ i) :
    Spares n L L' := by
  by_cases hin : L.Installed j
  · have hne : n ≠ (L.mem j).fd := hn _ ⟨hin, rfl⟩
    exact ⟨h.fdTableMax.ge, fun _ => h.fdTable_other n hne, h.interest_other n hne⟩
  · obtain ⟨-, hinterest, htable⟩ := h.idle hin
    exact ⟨h.fdTableMax.ge, fun _ => by rw [htable], by rw [hinterest]⟩

/-- A table that grows keeps the slots it had. -/
lemma spares_of_install (h : L.fdeventInstall j i = .ok L') (hn : n ≠ i) : Spares n L L' := by
  unfold fdeventInstall fdeventRegister at h
  simp only [setMem_mem_self] at h
  split at h
  case isTrue hfull =>
    split at h
    · cases h
    · cases h
      refine ⟨FdTable.le_grownTo i L.fdTableMax, fun hlt => ?_, rfl⟩
      simp only
      rw [update_of_ne hn]
      exact if_pos hlt
  case isFalse hroom =>
    cases h
    exact ⟨le_rfl, fun _ => update_of_ne hn .., rfl⟩

/-- The number an `fdevent` is installed with has a slot. -/
lemma size_of_install (h : L.fdeventInstall j i = .ok L')
    (hsize : L.fdTableMax = 0 ∨ 256 ≤ L.fdTableMax) : i < L'.fdTableMax ∧ 256 ≤ L'.fdTableMax := by
  unfold fdeventInstall fdeventRegister at h
  simp only [setMem_mem_self] at h
  split at h
  case isTrue hfull =>
    split at h
    · cases h
    case isFalse hrange =>
      cases h
      exact ⟨FdTable.lt_grownTo hsize (Nat.not_lt.mp hrange), FdTable.grownTo_ge i _ hsize⟩
  case isFalse hroom =>
    have hlt : i < L.fdTableMax := Nat.not_le.mp hroom
    have hgrown : 256 ≤ L.fdTableMax := hsize.resolve_left (Nat.ne_zero_of_lt hlt)
    cases h
    exact ⟨hlt, hgrown⟩

/-- Numbers are closed, and nothing else happens. -/
structure Closes (L L' : Loop FdeId) : Prop where
  mem : L'.mem = L.mem
  fdTable : L'.fdTable = L.fdTable
  fdTableMax : L'.fdTableMax = L.fdTableMax
  interest : ∀ n, L'.inUse n = true → L'.interest n = L.interest n

lemma closes_refl (L : Loop FdeId) : Closes L L := ⟨rfl, rfl, rfl, fun _ _ => rfl⟩

lemma Closes.close (h : Closes L L') (i : ℕ) : Closes L (L'.adbClose i) := by
  refine ⟨h.mem, h.fdTable, h.fdTableMax, fun n huse => ?_⟩
  by_cases hn : n = i
  · rw [hn, adbClose] at huse
    simp only [update_self] at huse
    cases huse
  · rw [adbClose] at huse ⊢
    simp only [update_of_ne hn] at huse ⊢
    exact h.interest n huse

/-! ## Keys that wait -/

/-- Each `auth_fde` that is installed is in the table under its number, and the kernel watches
the number. -/
structure Waiting (L : Loop FdeId) : Prop where
  size : L.fdTableMax = 0 ∨ 256 ≤ L.fdTableMax
  tabled : ∀ t n, L.Uses (.auth t) n →
    n < L.fdTableMax ∧ L.fdTable n = .fde (.auth t) ∧ (L.interest n).isSome = true

/-- Only one key waits for each number. -/
lemma Waiting.single (h : Waiting L) (ht : L.Uses (.auth t) n) (hu : L.Uses (.auth u) n) :
    t = u := by
  obtain ⟨-, hslot, -⟩ := h.tabled t n ht
  obtain ⟨-, hslot', -⟩ := h.tabled u n hu
  rw [hslot, Slot.fde.injEq, FdeId.auth.injEq] at hslot'
  exact hslot'

/-- An operation that installs no `auth_fde` and spares the numbers of those there are. -/
lemma Waiting.keep (h : Waiting L) (hsize : L'.fdTableMax = 0 ∨ 256 ≤ L'.fdTableMax)
    (hspares : ∀ t n, L'.Uses (.auth t) n → L.Uses (.auth t) n ∧ Spares n L L') : Waiting L' := by
  refine ⟨hsize, fun t n hu => ?_⟩
  obtain ⟨hold, hsame⟩ := hspares t n hu
  obtain ⟨hlt, hslot, hwatched⟩ := h.tabled t n hold
  exact ⟨hlt.trans_le hsame.max, (hsame.slot hlt).trans hslot, hsame.interest ▸ hwatched⟩

lemma Waiting.set (h : Waiting L) (hset : SetSpec j ev L L')
    (hn : ∀ t n i, L.Uses (.auth t) n → L.Uses j i → n ≠ i) : Waiting L' := by
  refine h.keep (hset.fdTableMax ▸ h.size) fun t n hu => ?_
  have hold := hset.uses hu
  exact ⟨hold, hset.spares fun i => hn t n i hold⟩

lemma Waiting.remove (h : Waiting L) (hrem : RemoveSpec j L L')
    (hn : ∀ t n i, L.Uses (.auth t) n → FdeId.auth t ≠ j → L.Uses j i → n ≠ i) : Waiting L' := by
  refine h.keep (hrem.fdTableMax ▸ h.size) fun t n hu => ?_
  obtain ⟨hold, hne⟩ := hrem.uses hu
  exact ⟨hold, hrem.spares fun i => hn t n i hold hne⟩

/-- An `auth_fde` is removed. -/
lemma Waiting.removeAuth (h : Waiting L) (hrem : RemoveSpec (.auth u) L L') : Waiting L' := by
  refine h.remove hrem fun t n i ht hne hu hni => hne ?_
  rw [h.single ht (hni ▸ hu)]

lemma Waiting.install (h : Waiting L) (hins : L.fdeventInstall j i = .ok L')
    (hj : j.isAuth = false) (hn : ∀ t n, L.Uses (.auth t) n → n ≠ i) : Waiting L' := by
  refine h.keep (.inr (size_of_install hins h.size).2) fun t n hu => ?_
  rcases uses_of_install hins hu with ⟨hold, -⟩ | ⟨-, rfl⟩
  · exact ⟨hold, spares_of_install hins (hn t n hold)⟩
  · cases hj

/-- The table and what the kernel watches stay as they are. -/
lemma Waiting.same (h : Waiting L) (hmax : L'.fdTableMax = L.fdTableMax)
    (htable : L'.fdTable = L.fdTable) (hinterest : L'.interest = L.interest)
    (huses : ∀ t n, L'.Uses (.auth t) n → L.Uses (.auth t) n) : Waiting L' := by
  refine h.keep (hmax ▸ h.size) fun t n hu => ⟨huses t n hu, hmax.ge, fun _ => ?_, ?_⟩
  · rw [htable]
  · rw [hinterest]

lemma Waiting.report (h : Waiting L) (j : FdeId) (e : EpollMask) :
    Waiting (L.fdeventReport j e) := by
  refine h.same ?_ ?_ ?_ fun _ _ => uses_of_report e
  all_goals
    unfold fdeventReport
    simp only
    split
    · rfl
    split <;> rfl

lemma Waiting.dispatch (h : Waiting L) (hd : L.fdeventPlistDequeue = some (j, L')) :
    Waiting (L'.fdeventCallFdfunc j).2 := by
  refine h.same ?_ ?_ ?_ fun _ _ => uses_of_dispatch hd
  all_goals
    obtain ⟨rest, -, rfl⟩ := fdeventPlistDequeue_eq hd
    unfold fdeventCallFdfunc
    simp only
    split <;> rfl

/-- An `fdevent` is installed and subscribed. -/
lemma Waiting.subscribe (h : Waiting L) (hins : L.fdeventInstall j i = .ok M)
    (hset : SetSpec j ev M L') (hj : j.isAuth = false)
    (hn : ∀ t n, L.Uses (.auth t) n → n ≠ i) : Waiting L' := by
  refine (h.install hins hj hn).set hset fun t n i' ht hu => ?_
  rcases uses_of_install hins ht with ⟨hold, -⟩ | ⟨-, rfl⟩
  · obtain ⟨-, hne⟩ | ⟨rfl, -⟩ := uses_of_install hins hu
    · exact absurd rfl hne
    · exact hn t n hold
  · cases hj

/-- Numbers are closed, but none of an `auth_fde`. -/
lemma Waiting.closes (h : Waiting L) (hc : Closes L L')
    (hopen : ∀ t n, L'.Uses (.auth t) n → L'.inUse n = true) : Waiting L' := by
  refine h.keep (hc.fdTableMax ▸ h.size) fun t n hu => ⟨⟨?_, ?_⟩, hc.fdTableMax.ge, ?_, ?_⟩
  · rw [Installed, ← hc.mem]
    exact hu.installed
  · rw [← hc.mem]
    exact hu.fd
  · rw [hc.fdTable]
    exact fun _ => rfl
  · exact hc.interest n (hopen t n hu)

/-- The first subscription of an `fdevent` registers a number that was not. -/
lemma watched_of_add (h : L.fdeventAdd k fdeRead = .ok L') (hstate : (L.mem k).state = fdeActive) :
    L.interest (L.mem k).fd = none ∧ (L'.interest (L.mem k).fd).isSome = true := by
  rw [fdeventAdd, hstate, fdeventSet] at h
  simp only [hstate] at h
  rw [if_neg (by decide), if_pos (by decide), bind_eq_ok_iff] at h
  obtain ⟨M, hM, h⟩ := h
  rw [fdeventUpdate] at hM
  simp only [hstate] at hM
  rw [if_pos (by decide), if_neg (by decide), epollCtl] at hM
  split at hM
  case isFalse => cases hM
  case isTrue hfree =>
    rw [Bool.and_eq_true, Option.isNone_iff_eq_none] at hfree
    cases hM
    cases h
    obtain ⟨f, l, hdrop, -⟩ := dropPending_eq k _ _
    refine ⟨hfree.2, ?_⟩
    rw [hdrop]
    simp only [setMem, update_self]
    rfl

/-- A key is sent to the framework: no other one waits for the answer on that connection. -/
lemma Waiting.confirm (h : Waiting L) (hins : L.fdeventInstall (.auth u) i = .ok M)
    (hadd : M.fdeventAdd (.auth u) fdeRead = .ok L') : Waiting L' := by
  have hset := fdeventSet_spec hadd
  obtain ⟨hlt, hsize⟩ := size_of_install hins h.size
  obtain ⟨T, m, hM, hT, -⟩ := fdeventInstall_ok hins
  have hself : M.mem (.auth u) = { fd := i, state := fdeActive } := by
    rw [hM]
    exact setMem_mem_self ..
  obtain ⟨hfree, hwatched⟩ := watched_of_add hadd (by rw [hself])
  rw [hself] at hfree hwatched
  refine ⟨.inr (hset.fdTableMax ▸ hsize), fun t n hu => ?_⟩
  rcases uses_of_install hins (hset.uses hu) with ⟨hold, hne⟩ | ⟨rfl, htu⟩
  · obtain ⟨hroom, hslot, hsome⟩ := h.tabled t n hold
    have hni : n ≠ i := by
      rintro rfl
      have hsame : M.interest n = L.interest n := by rw [hM]; rfl
      rw [← hsame, hfree] at hsome
      cases hsome
    have hsame := (spares_of_install hins hni).trans (hset.spares fun i' hu' => by
      rw [← hu'.fd, hself]
      exact hni)
    exact ⟨hroom.trans_le hsame.max, (hsame.slot hroom).trans hslot, hsame.interest ▸ hsome⟩
  · cases htu
    refine ⟨hset.fdTableMax ▸ hlt, ?_, hwatched⟩
    rw [hset.fdTable, hM]
    exact hT

end Loop

end Adbd
