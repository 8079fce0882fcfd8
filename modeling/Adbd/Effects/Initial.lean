import Adbd.Effects.Consistent
import Adbd.Model.Step

/-!
# The initial state

`adb_main` opens descriptors and installs the listeners; it creates no socket, no transport and
no process, so everything but the event loop and the descriptor table is as it was.
-/

namespace Adbd

open Function FlagWord Transition Daemon

/-- Only the event loop, the descriptor table and the environment's answers differ. -/
def OnlyLoop (D D' : Daemon) : Prop := ∃ L O I, D' = { D with loop := L, owner := O, io := I }

variable {D D' D'' : Daemon}

lemma OnlyLoop.trans (h : OnlyLoop D D') (h' : OnlyLoop D' D'') : OnlyLoop D D'' := by
  obtain ⟨L, O, I, rfl⟩ := h
  obtain ⟨L', O', I', rfl⟩ := h'
  exact ⟨L', O', I', rfl⟩

lemma onlyLoop_refl (D : Daemon) : OnlyLoop D D := ⟨_, _, _, rfl⟩

lemma takeFd_onlyLoop {d : Desc} {fd : Option ℕ} (h : D.takeFd d = .ok (fd, D')) :
    OnlyLoop D D' := by
  rw [takeFd] at h
  split at h
  · cases h
    exact onlyLoop_refl D
  · rw [bind_eq_ok_iff] at h
    obtain ⟨L, -, h⟩ := h
    cases h
    exact ⟨_, _, _, rfl⟩

lemma onLoop_onlyLoop {f : Loop FdeId → Except Stop (Loop FdeId)} (h : D.onLoop f = .ok D') :
    OnlyLoop D D' := by
  rw [onLoop, bind_eq_ok_iff] at h
  obtain ⟨L, -, h⟩ := h
  cases h
  exact ⟨_, _, _, rfl⟩

lemma listenOn_onlyLoop {k : FdeId} {ok : Bool} (h : D.listenOn k = .ok (ok, D')) :
    OnlyLoop D D' := by
  rw [listenOn, bind_eq_ok_iff] at h
  obtain ⟨⟨fd, D₁⟩, hfd, h⟩ := h
  have h₁ := takeFd_onlyLoop hfd
  cases fd with
  | none =>
    cases h
    exact h₁
  | some n =>
    rw [bind_eq_ok_iff] at h
    obtain ⟨D₂, hins, h⟩ := h
    rw [bind_eq_ok_iff] at h
    obtain ⟨D₃, hadd, h⟩ := h
    cases h
    exact h₁.trans ((onLoop_onlyLoop hins).trans (onLoop_onlyLoop hadd))

/-- What the daemon starts with holds after `adb_main` if opening a descriptor and installing a
listener keep it. -/
theorem adbMain_induction {P : Daemon → Prop} {config : Config} {fds : List ℕ} {inUse : ℕ → Bool}
    (hstart : P
      { loop := { mem := fun _ => {}, listPending := [], fdTable := fun _ => .null,
                  fdTableMax := 0, fill := fun _ => .wild, inUse := inUse,
                  interest := fun _ => none }
        config := config
        io := { fds := fds } })
    (htake : ∀ D d fd D', P D → D.takeFd d = .ok (fd, D') → P D')
    (hlisten : ∀ D k ok D', k ∈ [.registration, .authListener, .listener, .jdwpControl, .subproc] →
      P D → D.listenOn k = .ok (ok, D') → P D')
    (h : adbMain config fds inUse = .ok D) : P D := by
  have hmust : ∀ D k D', k ∈ [.registration, .authListener, .listener, .jdwpControl, .subproc] →
      P D → D.mustListenOn k = .ok D' → P D' := by
    intro D k D' hk hD hmust
    rw [mustListenOn, bind_eq_ok_iff] at hmust
    obtain ⟨⟨ok, D₁⟩, hlistens, hok⟩ := hmust
    cases ok with
    | false => cases hok
    | true =>
      cases hok
      exact hlisten D k true _ hk hD hlistens
  rw [adbMain, bind_eq_ok_iff] at h
  obtain ⟨⟨fd, D₁⟩, h₁, h⟩ := h
  rw [bind_eq_ok_iff] at h
  obtain ⟨D₂, h₂, h⟩ := h
  rw [bind_eq_ok_iff] at h
  obtain ⟨⟨b, D₃⟩, h₃, h⟩ := h
  rw [bind_eq_ok_iff] at h
  obtain ⟨D₄, h₄, h⟩ := h
  rw [bind_eq_ok_iff] at h
  obtain ⟨⟨b₅, D₅⟩, h₅, h⟩ := h
  rw [bind_eq_ok_iff] at h
  obtain ⟨⟨fd₆, D₆⟩, h₆, h⟩ := h
  have hP₂ := hmust _ _ _ (by simp) (htake _ _ _ _ hstart h₁) h₂
  have hP₃ : P D₃ := by
    split at h₃
    · exact hlisten _ _ _ _ (by simp) hP₂ h₃
    · cases h₃
      exact hP₂
  have hP₅ := hlisten _ _ _ _ (by simp) (hmust _ _ _ (by simp) hP₃ h₄) h₅
  exact hmust _ _ _ (by simp) (htake _ _ _ _ hP₅ h₆) h

/-- `adb_main` makes nothing but listeners. -/
lemma adbMain_eq {config : Config} {fds : List ℕ} {inUse : ℕ → Bool}
    (h : adbMain config fds inUse = .ok D) :
    ∃ L O I, D = { loop := L, owner := O, io := I, config := config } := by
  refine adbMain_induction (P := fun D => ∃ L O I, D =
    { loop := L, owner := O, io := I, config := config }) ⟨_, _, _, rfl⟩ ?_ ?_ h
  · rintro D d fd D' ⟨L, O, I, rfl⟩ htake
    obtain ⟨L', O', I', rfl⟩ := takeFd_onlyLoop htake
    exact ⟨L', O', I', rfl⟩
  · rintro D k ok D' - ⟨L, O, I, rfl⟩ hlisten
    obtain ⟨L', O', I', rfl⟩ := listenOn_onlyLoop hlisten
    exact ⟨L', O', I', rfl⟩

/-! ## Consistency -/

/-- While `adb_main` runs, only listeners among `ks` are installed. -/
structure Booting (ks : List FdeId) (L : Loop FdeId) : Prop where
  wf : LoopWf Set.univ ∅ (fun _ => none) (fun _ => false) L
  installed : ∀ j, L.Installed j → j ∈ ks

variable {ks : List FdeId} {k : FdeId}

lemma Booting.takeFd {d : Desc} {fd : Option ℕ} (h : Booting ks D.loop)
    (hfd : D.takeFd d = .ok (fd, D')) : Booting ks D'.loop := by
  rw [Daemon.takeFd] at hfd
  split at hfd
  · cases hfd
    exact h
  · rw [bind_eq_ok_iff] at hfd
    obtain ⟨L, hL, hfd⟩ := hfd
    cases hfd
    rw [Loop.openFd] at hL
    split at hL
    · cases hL
    · cases hL
      exact ⟨h.wf.opened _, h.installed⟩

/-- A listener is subscribed to once. -/
lemma Booting.listenOn {ok : Bool} (h : Booting ks D.loop) (hk : k ∉ ks)
    (hsock : ∀ a, k ≠ .socket a) (htr : ∀ t, k ≠ .transport t) (hproc : ∀ i, k ≠ .jdwpProcess i)
    (hlisten : D.listenOn k = .ok (ok, D')) : Booting (k :: ks) D'.loop := by
  rw [Daemon.listenOn, bind_eq_ok_iff] at hlisten
  obtain ⟨⟨fd, D₁⟩, hfd, hlisten⟩ := hlisten
  have h₁ := h.takeFd hfd
  cases fd with
  | none =>
    cases hlisten
    exact ⟨h₁.wf, fun j hj => List.mem_cons_of_mem _ (h₁.installed j hj)⟩
  | some n =>
    rw [bind_eq_ok_iff] at hlisten
    obtain ⟨D₂, hins, hlisten⟩ := hlisten
    rw [bind_eq_ok_iff] at hlisten
    obtain ⟨D₃, hadd, hlisten⟩ := hlisten
    cases hlisten
    rw [onLoop, bind_eq_ok_iff] at hins hadd
    obtain ⟨L, hL, hins⟩ := hins
    cases hins
    obtain ⟨M, hM, hadd⟩ := hadd
    cases hadd
    have hnew : k ∈ Set.univ → ¬D₁.loop.Installed k := fun _ hin => hk (h₁.installed k hin)
    have hwf := h₁.wf.install hL hnew (fun a ha => absurd ha (hsock a))
      (fun t ht => absurd ht (htr t)) hproc
    have hset := Loop.fdeventSet_spec hM
    refine ⟨hwf.set hset (fun a ha => absurd ha (hsock a)) (fun a ha => absurd ha (hsock a)), ?_⟩
    intro j hj
    by_cases hjk : j = k
    · exact hjk ▸ List.mem_cons_self
    · refine List.mem_cons_of_mem _ (h₁.installed j ?_)
      obtain ⟨T, N, hLeq, -⟩ := Loop.fdeventInstall_ok hL
      have hmem : M.mem j = D₁.loop.mem j := by
        rw [hset.mem_other j hjk, hLeq]
        exact Loop.setMem_mem_of_ne hjk ..
      rw [Loop.Installed, ← hmem]
      exact hj

lemma Booting.mustListenOn (h : Booting ks D.loop) (hk : k ∉ ks)
    (hsock : ∀ a, k ≠ .socket a) (htr : ∀ t, k ≠ .transport t) (hproc : ∀ i, k ≠ .jdwpProcess i)
    (hlisten : D.mustListenOn k = .ok D') : Booting (k :: ks) D'.loop := by
  rw [Daemon.mustListenOn, bind_eq_ok_iff] at hlisten
  obtain ⟨⟨ok, D₁⟩, hlisten, hok⟩ := hlisten
  cases ok with
  | false => cases hok
  | true =>
    cases hok
    exact h.listenOn hk hsock htr hproc hlisten

/-- Nothing is installed and nothing referred to. -/
lemma booting_start (inUse : ℕ → Bool) :
    Booting [] { mem := fun _ => {}, listPending := [], fdTable := fun _ => .null, fdTableMax := 0,
                 fill := fun _ => .wild, inUse := inUse, interest := fun _ => none } := by
  have hno : ∀ m, has (0#16) m = false := fun m => has_zero_left m
  refine ⟨⟨fun a => trivial, ?_, ?_, ?_, ?_, ?_, ?_, ?_, ?_, ?_, ?_, ?_, ?_⟩, ?_⟩
  · intro n m hm
    cases hm
  · intro i k hk
    cases hk
  · intro k hk
    cases hk
  · intro n m k hk
    cases hk
  · intro n k hk
    cases hk
  · intro a ha
    cases (hno _).symm.trans ha
  · intro a s _ hs
    cases hs
  · intro t ht
    cases (hno _).symm.trans ht
  · intro a
    exact hno _
  · intro i hi
    cases (hno _).symm.trans hi
  · intro a _
    exact ⟨rfl, rfl⟩
  · intro a ha
    cases (hno _).symm.trans ha
  · intro k hk
    cases (hno _).symm.trans hk

/-- `adb_main` installs nothing but listeners. -/
lemma booting_adbMain {config : Config} {fds : List ℕ} {inUse : ℕ → Bool}
    (h : adbMain config fds inUse = .ok D) :
    Booting [.subproc, .jdwpControl, .listener, .authListener, .registration] D.loop := by
  rw [adbMain, bind_eq_ok_iff] at h
  obtain ⟨⟨fd, D₁⟩, h₁, h⟩ := h
  rw [bind_eq_ok_iff] at h
  obtain ⟨D₂, h₂, h⟩ := h
  rw [bind_eq_ok_iff] at h
  obtain ⟨⟨b, D₃⟩, h₃, h⟩ := h
  rw [bind_eq_ok_iff] at h
  obtain ⟨D₄, h₄, h⟩ := h
  rw [bind_eq_ok_iff] at h
  obtain ⟨⟨b₅, D₅⟩, h₅, h⟩ := h
  rw [bind_eq_ok_iff] at h
  obtain ⟨⟨fd₆, D₆⟩, h₆, h⟩ := h
  have hb₁ := (booting_start inUse).takeFd (D := { loop := _, config := config, io := _ }) h₁
  have hb₂ := hb₁.mustListenOn (by simp) (by simp) (by simp) (by simp) h₂
  have hb₃ : Booting [.authListener, .registration] D₃.loop := by
    split at h₃
    · exact hb₂.listenOn (by simp) (by simp) (by simp) (by simp) h₃
    · cases h₃
      exact ⟨hb₂.wf, fun j hj => List.mem_cons_of_mem _ (hb₂.installed j hj)⟩
  have hb₄ := hb₃.mustListenOn (by simp) (by simp) (by simp) (by simp) h₄
  have hb₅ := hb₄.listenOn (by simp) (by simp) (by simp) (by simp) h₅
  exact (hb₅.takeFd h₆).mustListenOn (by simp) (by simp) (by simp) (by simp) h

/-- The event loop is consistent when `fdevent_loop` begins, no `auth_fde` exempt. -/
theorem loopWf_adbMain {config : Config} {fds : List ℕ} {inUse : ℕ → Bool}
    (h : adbMain config fds inUse = .ok D) :
    LoopWf Set.univ ∅ (fun _ => none) (fun _ => false) D.loop := (booting_adbMain h).wf

/-- Fewer `fdevent`s are claimed to be consistent. -/
lemma LoopWf.restrict {K K' : Set FdeId} {X : Set Addr} {S : Addr → Option Asocket}
    {T : TAddr → Bool} {L : Loop FdeId} (h : LoopWf K X S T L) (hK : K' ⊆ K)
    (hcovers : ∀ a, FdeId.socket a ∈ K') : LoopWf K' X S T L :=
  { h with
    covers := hcovers
    pending := fun k hk hk' => h.pending k hk (hK hk')
    entry := fun n m k hk hk' => h.entry n m k hk (hK hk')
    slot := fun n k hk hk' => h.slot n k hk (hK hk') }

/-- The state is consistent when `fdevent_loop` begins. -/
theorem wf_adbMain {config : Config} {fds : List ℕ} {inUse : ℕ → Bool}
    (h : adbMain config fds inUse = .ok D) : Wf { d := D } := by
  have hloop := loopWf_adbMain h
  obtain ⟨L, O, I, rfl⟩ := adbMain_eq h
  refine ⟨⟨?_, ?_, ?_, ?_, ?_, ?_, List.nodup_nil, List.nodup_nil, ?_, ?_, ?_, ?_, ?_⟩,
    hloop.restrict (Set.subset_univ _) fun a => rfl, ⟨?_, ?_, ?_, List.nodup_nil, ?_, ?_⟩,
    ⟨?_, ?_⟩, rfl⟩
  all_goals intros
  all_goals grind [disconnectsOf]

end Adbd
