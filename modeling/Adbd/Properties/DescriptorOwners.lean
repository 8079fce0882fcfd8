import Adbd.Framework.Handles
import Adbd.Properties.FdeNumbers
import Adbd.Properties.OutgoingPath

/-!
# Whose descriptors they are

The daemon keeps descriptor numbers in four places: in an `fdevent`, in the two ends of a
transport's pair, in the `sfd` of a TCP transport, and in `framework_fd`.  A number that has been
closed is handed out again, so each of them may name somebody else's file by now; and the number of
one end of a pair is in fact closed twice, by `transport_unref` and again when the transport is
removed.

That second close is the only danger.  As long as it does not hit a number that has been handed out
again, every number in the four places is the one it was opened for, whatever else happens.
-/

namespace Adbd

open Function Relation Transition FlagWord Daemon Handles

/-- What the number in an `fdevent` was opened for. -/
def FdeId.desc : FdeId → Option Desc
  | .socket a => some (.socket a)
  | .transport t => some (.transportSocket t)
  | .auth _ => some .framework
  | .jdwpProcess _ => none
  | k => some (.listener k)

namespace DescriptorOwners

open Loop

/-! ## Claims -/

/-- The numbers that the event loop `L`, the transports `T` and `framework_fd` keep, with what they
were opened for.  The pair of a transport counts as long as one of its threads runs. -/
inductive Claims (L : Loop FdeId) (T : TAddr → Option Atransport) (F : Option ℕ) : ℕ → Desc → Prop
  | fde (k : FdeId) (n : ℕ) (d : Desc) (hd : k.desc = some d) (h : L.Uses k n) : Claims L T F n d
  | near (t : TAddr) (x : Atransport) (hx : T t = some x) (hrun : x.running ≠ 0) :
    Claims L T F x.transportSocket (.transportSocket t)
  | far (t : TAddr) (x : Atransport) (hx : T t = some x) (hrun : x.running ≠ 0) :
    Claims L T F x.fd (.transportFd t)
  | connection (t : TAddr) (x : Atransport) (n : ℕ) (hx : T t = some x) (hn : x.sfd = some n) :
    Claims L T F n (.sfd t)
  | framework (n : ℕ) (h : F = some n) : Claims L T F n .framework

/-- Which descriptors are open, and for what. -/
def table (D : Daemon) : Table ℕ Desc := ⟨D.loop.inUse, D.owner⟩

/-- Every number the daemon keeps is open, and for what it was opened for. -/
def Owned (D : Daemon) : Prop := Safe (Claims D.loop D.transports D.frameworkFd) (table D)

lemma holds_iff {D : Daemon} {n : ℕ} {d : Desc} : D.holds n d = true ↔ (table D).Holds n d := by
  rw [Daemon.holds, Bool.and_eq_true, decide_eq_true_eq]
  exact Iff.rfl

/-- Every transport of `T'` keeps no more than it does in `T`. -/
def Keeps (T T' : TAddr → Option Atransport) : Prop :=
  ∀ t y, T' t = some y → ∃ x, T t = some x ∧ (y.running ≠ 0 → x.running ≠ 0) ∧ y.fd = x.fd ∧
    y.transportSocket = x.transportSocket ∧ ∀ n, y.sfd = some n → x.sfd = some n

section Claims

variable {L L' M : Loop FdeId} {T T' : TAddr → Option Atransport} {F F' : Option ℕ} {n : ℕ}
  {d : Desc} {t : TAddr} {x y z : Atransport} {O : ℕ → Option Desc}

lemma keeps_refl : Keeps T T := fun _ y hy => ⟨y, hy, id, rfl, rfl, fun _ => id⟩

lemma keeps_assign (hx : T t = some x) (hrun : y.running ≠ 0 → x.running ≠ 0) (hfd : y.fd = x.fd)
    (hsock : y.transportSocket = x.transportSocket) (hsfd : ∀ n, y.sfd = some n → x.sfd = some n) :
    Keeps T (update T t (some y)) := by
  intro u z hz
  by_cases hut : u = t
  · rw [hut, update_self, Option.some.injEq] at hz
    subst hz
    exact ⟨x, hut ▸ hx, hrun, hfd, hsock, hsfd⟩
  · rw [update_of_ne hut] at hz
    exact keeps_refl u z hz

lemma keeps_free : Keeps T (update T t none) := by
  intro u z hz
  by_cases hut : u = t
  · rw [hut, update_self] at hz
    cases hz
  · rw [update_of_ne hut] at hz
    exact keeps_refl u z hz

lemma claims_mono (huses : ∀ k n, L'.Uses k n → L.Uses k n) (hT : Keeps T T')
    (hF : ∀ n, F' = some n → F = some n) (h : Claims L' T' F' n d) : Claims L T F n d := by
  cases h with
  | fde k n d hd h => exact .fde k n d hd (huses k n h)
  | near t y hy hrun =>
    obtain ⟨x, hx, hrun', -, hsock, -⟩ := hT t y hy
    rw [hsock]
    exact .near t x hx (hrun' hrun)
  | far t y hy hrun =>
    obtain ⟨x, hx, hrun', hfd, -, -⟩ := hT t y hy
    rw [hfd]
    exact .far t x hx (hrun' hrun)
  | connection t y n hy hn =>
    obtain ⟨x, hx, -, -, -, hsfd⟩ := hT t y hy
    exact .connection t x n hx (hsfd n hn)
  | framework n h => exact .framework n (hF n h)

/-! What a claim for each kind of descriptor comes from. -/

lemma Claims.of_socket {a : Addr} (h : Claims L T F n (.socket a)) : L.Uses (.socket a) n := by
  cases h with
  | fde k n d hd h =>
    cases k <;> cases hd
    exact h

lemma Claims.of_transportSocket (h : Claims L T F n (.transportSocket t)) :
    L.Uses (.transport t) n ∨ ∃ x, T t = some x ∧ x.running ≠ 0 ∧ x.transportSocket = n := by
  cases h with
  | fde k n d hd h =>
    cases k <;> cases hd
    exact .inl h
  | near t x hx hrun => exact .inr ⟨x, hx, hrun, rfl⟩

lemma Claims.of_transportFd (h : Claims L T F n (.transportFd t)) :
    ∃ x, T t = some x ∧ x.running ≠ 0 ∧ x.fd = n := by
  cases h with
  | fde k n d hd h => cases k <;> cases hd
  | far t x hx hrun => exact ⟨x, hx, hrun, rfl⟩

lemma Claims.of_sfd (h : Claims L T F n (.sfd t)) : ∃ x, T t = some x ∧ x.sfd = some n := by
  cases h with
  | fde k n d hd h => cases k <;> cases hd
  | connection t x n hx hn => exact ⟨x, hx, hn⟩

lemma Claims.of_framework (h : Claims L T F n .framework) :
    (∃ t, L.Uses (.auth t) n) ∨ F = some n := by
  cases h with
  | fde k n d hd h =>
    cases k <;> cases hd
    exact .inl ⟨_, h⟩
  | framework n h => exact .inr h

lemma Claims.ne_other (h : Claims L T F n d) : d ≠ .other := by
  rintro rfl
  cases h with
  | fde k n d hd h => cases k <;> cases hd

/-! ## The threads -/

/-- Kicking a TCP transport closes the number of its connection, and forgets it. -/
lemma kick_safe {os : List Obs} (h : Kick t x L y M os) (hs : Safe (Claims L T F) ⟨L.inUse, O⟩)
    (hz : T t = some z) (hsfd : x.sfd = z.sfd) :
    Safe (Claims M (update T t (some { z with sfd := y.sfd })) F) ⟨M.inUse, O⟩ := by
  cases h with
  | idle =>
    rw [hsfd, show ({ z with sfd := z.sfd } : Atransport) = z from rfl, ← hz, update_eq_self]
    exact hs
  | shut n own htype hn =>
    have hclaim : Claims L T F n (.sfd t) := .connection t z n hz (hsfd ▸ hn)
    have hkeeps : Keeps T (update T t (some { z with sfd := none })) :=
      keeps_assign hz id rfl rfl nofun
    refine hs.close (hs n _ hclaim).spare rfl (fun m hm => update_of_ne hm ..) fun m c hc =>
      ⟨?_, ?_⟩
    · exact claims_mono (fun _ _ => uses_of_close) hkeeps (fun _ => id) hc
    · rintro ⟨rfl, rfl⟩
      obtain ⟨w, hw, hn⟩ := hc.of_sfd
      rw [update_self, Option.some.injEq] at hw
      rw [← hw] at hn
      cases hn

/-- The end of the last thread of a TCP transport closes the number of the far end. -/
lemma close_safe {os : List Obs} (h : CloseT t x L M os) (hs : Safe (Claims L T F) ⟨L.inUse, O⟩)
    (hz : T t = some z) (hrun : z.running ≠ 0) (hfd : x.fd = z.fd) (hy : y.running = 0)
    (hsfd : ∀ n, y.sfd = some n → z.sfd = some n) (hyfd : y.fd = z.fd)
    (hsock : y.transportSocket = z.transportSocket) :
    Safe (Claims M (update T t (some y)) F) ⟨M.inUse, O⟩ := by
  have hkeeps : Keeps T (update T t (some y)) :=
    keeps_assign hz (fun hno => absurd hy hno) hyfd hsock hsfd
  cases h with
  | usb => exact hs.mono fun m c hc => claims_mono (fun _ _ => id) hkeeps (fun _ => id) hc
  | loc own htype =>
    have hclaim : Claims L T F x.fd (.transportFd t) := hfd ▸ .far t z hz hrun
    refine hs.close (hs _ _ hclaim).spare rfl (fun m hm => update_of_ne hm ..) fun m c hc =>
      ⟨?_, ?_⟩
    · exact claims_mono (fun _ _ => uses_of_close) hkeeps (fun _ => id) hc
    · rintro ⟨rfl, rfl⟩
      obtain ⟨w, hw, hrun', -⟩ := hc.of_transportFd
      rw [update_self, Option.some.injEq] at hw
      exact hrun' (hw ▸ hy)

/-- `transport_unref` of a thread that has ended. -/
lemma unref_safe {R S : List (TAddr × RegAction)} {os : List Obs} (h : Unref t x L R y M S os)
    (hs : Safe (Claims L T F) ⟨L.inUse, O⟩) (hz : T t = some z) (hrun : z.running ≠ 0)
    (hends : x.fd = z.fd ∧ x.transportSocket = z.transportSocket ∧ x.sfd = z.sfd)
    (href : x.refCount = x.running + 1) :
    Safe (Claims M (update T t (some y)) F) ⟨M.inUse, O⟩ := by
  obtain ⟨hfd, hsock, hsfd⟩ := hends
  cases h with
  | shared hne =>
    have hkeeps : Keeps T (update T t (some { x with refCount := x.refCount - 1 })) :=
      keeps_assign hz (fun _ => hrun) hfd hsock fun n hn => hsfd ▸ hn
    exact hs.mono fun m c hc => claims_mono (fun _ _ => id) hkeeps (fun _ => id) hc
  | last M os hlast hkicked hclose =>
    have hdone : x.running = 0 := by omega
    exact close_safe hclose hs hz hrun hfd hdone (fun n hn => hsfd ▸ hn) hfd hsock
  | kicks w M N os os' hlast hkicked hkick hclose =>
    have hkick' := kick_safe hkick hs hz hsfd
    have hw : w = { x with sfd := w.sfd } := hkick.frame
    have hdone : Atransport.running { w with refCount := 0, kicked := true } = 0 := by
      rw [hw]
      show x.running = 0
      omega
    have hclose' := close_safe hclose hkick' (update_self ..) hrun hfd hdone (fun _ => id)
      (by rw [hw]; exact hfd) (by rw [hw]; exact hsock)
    rwa [update_idem] at hclose'

end Claims

section Threads

variable {D : Daemon} {L : Loop FdeId} {t : TAddr} {x y : Atransport}
  {R : List (TAddr × RegAction)} {os : List Obs} {packet : Option Apacket}

lemma running_of_output (h : x.output ≠ .done) : x.running ≠ 0 := by
  rw [Atransport.running, if_neg h]
  omega

lemma running_of_input (h : x.input ≠ .done) : x.running ≠ 0 := by
  rw [Atransport.running, if_neg h]
  omega

/-- A thread that closes nothing. -/
lemma Owned.work (h : Owned D) (hx : D.transports t = some x) (hrun : x.running ≠ 0)
    (hfd : y.fd = x.fd) (hsock : y.transportSocket = x.transportSocket) (hsfd : y.sfd = x.sfd) :
    Safe (Claims D.loop (update D.transports t (some y)) D.frameworkFd)
      ⟨D.loop.inUse, D.owner⟩ := by
  have hkeeps : Keeps D.transports (update D.transports t (some y)) :=
    keeps_assign hx (fun _ => hrun) hfd hsock fun n hn => hsfd ▸ hn
  exact Safe.mono h fun m c hc => claims_mono (fun _ _ => id) hkeeps (fun _ => id) hc

/-- A thread that kicks its transport. -/
lemma Owned.kicks (h : Owned D) (hx : D.transports t = some x) (hrun : x.running ≠ 0)
    {z : Atransport} (hkick : Kick t x D.loop z L os) (hfd : y.fd = x.fd)
    (hsock : y.transportSocket = x.transportSocket) (hsfd : y.sfd = z.sfd) :
    Safe (Claims L (update D.transports t (some y)) D.frameworkFd) ⟨L.inUse, D.owner⟩ := by
  have hkicked := kick_safe hkick h hx rfl
  have hkeeps : Keeps (update D.transports t (some { x with sfd := z.sfd }))
      (update (update D.transports t (some { x with sfd := z.sfd })) t (some y)) :=
    keeps_assign (update_self ..) (fun _ => hrun) hfd hsock fun n hn => hsfd ▸ hn
  rw [update_idem] at hkeeps
  exact hkicked.mono fun m c hc => claims_mono (fun _ _ => id) hkeeps (fun _ => id) hc

lemma Owned.output (h : Owned D) (hx : D.transports t = some x) (href : x.refCount = x.running)
    (hstep : OutputStep packet t D x y L R os) :
    Safe (Claims L (update D.transports t (some y)) D.frameworkFd) ⟨L.inUse, D.owner⟩ := by
  have hrun : x.running ≠ 0 := by
    refine running_of_output fun hdone => ?_
    cases hstep <;> simp_all
  cases hstep with
  | kick z L os hpc hkick =>
    refine h.kicks hx hrun hkick ?_ ?_ rfl
    all_goals rw [hkick.frame]
  | unref y L R os hpc hunref =>
    refine unref_safe hunref h hx hrun ⟨rfl, rfl, rfl⟩ ?_
    rw [show ({ x with output := .done } : Atransport).refCount = x.refCount from rfl, href]
    simp [Atransport.running, hpc]
    omega
  | _ => exact h.work hx hrun rfl rfl rfl

lemma Owned.input (h : Owned D) (hx : D.transports t = some x) (href : x.refCount = x.running)
    (hstep : InputStep t D x y L R os) :
    Safe (Claims L (update D.transports t (some y)) D.frameworkFd) ⟨L.inUse, D.owner⟩ := by
  have hrun : x.running ≠ 0 := by
    refine running_of_input fun hdone => ?_
    cases hstep <;> simp_all
  cases hstep with
  | kick z L os hpc hkick =>
    refine h.kicks hx hrun hkick ?_ ?_ rfl
    all_goals rw [hkick.frame]
  | unref y L R os hpc hunref =>
    refine unref_safe hunref h hx hrun ⟨rfl, rfl, rfl⟩ ?_
    rw [show ({ x with input := .done } : Atransport).refCount = x.refCount from rfl, href]
    simp [Atransport.running, hpc]
  | _ => exact h.work hx hrun rfl rfl rfl

end Threads

/-! ## The changes -/

section Changes

variable {e : Event} {D D₀ : Daemon} {m m' : Moment} {t : TAddr} {x y : Atransport}

/-- No transport is removed while the number of its end of the pair is somebody else's. -/
def NoStray (e : Event) (D : Daemon) : Prop :=
  ∀ t x, Removes e D t → D.transports t = some x → (table D).Spare x.fd (.transportFd t)

/-- The event loop changes, and no `fdevent` gets a number. -/
lemma Owned.loop (h : Owned D) {L : Loop FdeId} (huses : ∀ k n, L.Uses k n → D.loop.Uses k n)
    (huse : L.inUse = D.loop.inUse) : Owned { D with loop := L } := by
  rw [Owned, table]
  rw [show ({ D with loop := L } : Daemon).loop.inUse = D.loop.inUse from huse]
  exact Safe.mono h fun m c hc => claims_mono huses keeps_refl (fun _ => id) hc

/-- Other fields of a transport are assigned to. -/
lemma Owned.assign (h : Owned D) (hx : D.transports t = some x)
    (hy : y.running = x.running ∧ y.fd = x.fd ∧ y.transportSocket = x.transportSocket ∧
      y.sfd = x.sfd) :
    Safe (Claims D.loop (update D.transports t (some y)) D.frameworkFd) (table D) := by
  obtain ⟨hrun, hfd, hsock, hsfd⟩ := hy
  have hkeeps : Keeps D.transports (update D.transports t (some y)) :=
    keeps_assign hx (fun h => hrun ▸ h) hfd hsock fun n hn => hsfd ▸ hn
  exact Safe.mono h fun m c hc => claims_mono (fun _ _ => id) hkeeps (fun _ => id) hc

/-- An `fdevent` is removed: the number it has is its own, and is closed. -/
lemma Owned.remove (h : Owned D) {k : FdeId} {d : Desc} {L : Loop FdeId} {F : Option ℕ}
    (hd : k.desc = some d) (hspec : Loop.RemoveSpec k D.loop L)
    (hF : ∀ n, F = some n → D.frameworkFd = some n)
    (hnot : D.loop.Installed k → ¬Claims L D.transports F (D.loop.mem k).fd d) :
    Safe (Claims L D.transports F) ⟨L.inUse, D.owner⟩ := by
  have hsub : ∀ n c, Claims L D.transports F n c → Claims D.loop D.transports D.frameworkFd n c :=
    fun n c hc => claims_mono (fun _ _ hu => (hspec.uses hu).1) keeps_refl hF hc
  by_cases hin : D.loop.Installed k
  · have hclaim : Claims D.loop D.transports D.frameworkFd (D.loop.mem k).fd d :=
      .fde k _ d hd ⟨hin, rfl⟩
    refine Safe.close h (h _ _ hclaim).spare rfl hspec.inUse_other fun n c hc => ⟨hsub n c hc, ?_⟩
    rintro ⟨rfl, rfl⟩
    exact hnot hin hc
  · rw [(hspec.idle hin).1]
    exact Safe.mono h hsub

/-- The `fdevent` of a socket is removed. -/
lemma Owned.uninstall (h : Owned D) {a : Addr} {L : Loop FdeId}
    (hspec : Loop.RemoveSpec (.socket a) D.loop L) : Owned { D with loop := L } := by
  refine h.remove rfl hspec (fun _ => id) fun _ hc => ?_
  exact (hspec.uses hc.of_socket).2 rfl

/-- The `fdevent` of a host that waits for the framework is removed, and the framework is given
up. -/
lemma Owned.dropped (h : Owned D) (hw : Waiting D.loop) {L : Loop FdeId}
    (hremove : D.loop.fdeventRemove (.auth t) = .ok L) :
    Owned { D with loop := L, frameworkFd := none } := by
  have hspec := fdeventRemove_spec hremove
  refine h.remove rfl hspec nofun fun hin hc => ?_
  rcases hc.of_framework with ⟨u, hu⟩ | hno
  · obtain ⟨hold, hne⟩ := hspec.uses hu
    have huses : D.loop.Uses (.auth t) (D.loop.mem (.auth t)).fd := ⟨hin, rfl⟩
    rw [hw.single hold huses] at hne
    exact hne rfl
  · cases hno

/-- A transport is removed, and with it the numbers of both ends of its pair. -/
lemma Owned.unplug (h : Owned D) (hx : D.transports t = some x) (hdone : x.running = 0)
    {L : Loop FdeId} (hremove : D.loop.fdeventRemove (.transport t) = .ok L)
    (hspare : (table D).Spare x.fd (.transportFd t)) :
    Owned { D with loop := L.adbClose x.fd } := by
  have hspec := fdeventRemove_spec hremove
  have hnear : Safe (Claims L D.transports D.frameworkFd) ⟨L.inUse, D.owner⟩ := by
    refine h.remove rfl hspec (fun _ => id) fun _ hc => ?_
    rcases hc.of_transportSocket with hu | ⟨y, hy, hrun, -⟩
    · exact (hspec.uses hu).2 rfl
    · rw [hx, Option.some.injEq] at hy
      exact hrun (hy ▸ hdone)
  refine hnear.close (fun huse => hspare (hspec.inUse_sub _ huse)) rfl
    (fun n hn => update_of_ne hn ..) fun n c hc => ⟨?_, ?_⟩
  · exact claims_mono (fun _ _ => uses_of_close) keeps_refl (fun _ => id) hc
  · rintro ⟨rfl, rfl⟩
    obtain ⟨y, hy, hrun, -⟩ := hc.of_transportFd
    rw [hx, Option.some.injEq] at hy
    exact hrun (hy ▸ hdone)

/-- The pair of a transport is made, and one end of it given to the `fdevent`. -/
lemma Owned.start (h : Owned D) {n k : ℕ} {L M : Loop FdeId} {ev : BitVec 16}
    (hx : D.transports t = some x) (hn : D.loop.inUse n = false) (hk : D.loop.inUse k = false)
    (hnk : n ≠ k)
    (hL : Loop.fdeventInstall (.transport t) n
      { D.loop with inUse := update (update D.loop.inUse n true) k true } = .ok L)
    (hM : Loop.SetSpec (.transport t) ev L M) (hsock : y.transportSocket = n) (hfd : y.fd = k)
    (hsfd : y.sfd = x.sfd) :
    Safe (Claims M (update D.transports t (some y)) D.frameworkFd)
      ⟨M.inUse,
        update (update D.owner n (some (.transportSocket t))) k (some (.transportFd t))⟩ := by
  have hnear := @Safe.opened _ _ _ (fun i c => Claims D.loop D.transports D.frameworkFd i c ∨
    i = n ∧ c = .transportSocket t) _ n (.transportSocket t) _ h hn fun i c hc => hc
  have hfree : update D.loop.inUse n true k = false := (update_of_ne hnk.symm ..).trans hk
  have hboth := @Safe.opened _ _ _ (fun i c => (Claims D.loop D.transports D.frameworkFd i c ∨
    i = n ∧ c = .transportSocket t) ∨ i = k ∧ c = .transportFd t) _ k (.transportFd t) _ hnear hfree
    fun i c hc => hc
  have huses : ∀ j i, M.Uses j i → D.loop.Uses j i ∨ i = n ∧ j = .transport t := by
    intro j i hu
    exact (uses_of_install hL (hM.uses hu)).imp_left fun hold => uses_of_open hold.1
  have huse : M.inUse = update (update D.loop.inUse n true) k true := by
    obtain ⟨T, N, rfl, -, -⟩ := fdeventInstall_ok hL
    exact hM.inUse
  rw [huse]
  refine hboth.mono fun i c hc => ?_
  have hother : ∀ u z, update D.transports t (some y) u = some z → u ≠ t →
      D.transports u = some z := fun u z hz hut => (update_of_ne hut ..).symm.trans hz
  have hself : ∀ z, update D.transports t (some y) t = some z → z = y := by
    intro z hz
    rw [update_self, Option.some.injEq] at hz
    exact hz.symm
  cases hc with
  | fde j i c hc hu =>
    rcases huses j i hu with hu | ⟨rfl, rfl⟩
    · exact .inl (.inl (.fde j i c hc hu))
    · rw [FdeId.desc, Option.some.injEq] at hc
      exact .inl (.inr ⟨rfl, hc.symm⟩)
  | near u z hz hrun =>
    by_cases hut : u = t
    · subst hut
      rw [hself z hz]
      exact .inl (.inr ⟨hsock, rfl⟩)
    · exact .inl (.inl (.near u z (hother u z hz hut) hrun))
  | far u z hz hrun =>
    by_cases hut : u = t
    · subst hut
      rw [hself z hz]
      exact .inr ⟨hfd, rfl⟩
    · exact .inl (.inl (.far u z (hother u z hz hut) hrun))
  | connection u z i hz hi =>
    by_cases hut : u = t
    · subst hut
      rw [hself z hz, hsfd] at hi
      exact .inl (.inl (.connection u x i hx hi))
    · exact .inl (.inl (.connection u z i (hother u z hz hut) hi))
  | framework i hi => exact .inl (.inl (.framework i hi))

/-- A transport is made, with the number of its connection if it has one. -/
lemma Owned.register (h : Owned D) (hx : x = { type := x.type, sfd := x.sfd, serial := x.serial })
    (hown : ∀ n, x.sfd = some n → D.holds n (.sfd D.nextTAddr) = true) :
    Owned (D.registerTransport x) := by
  have hdone : x.running = 0 := by
    rw [hx]
    rfl
  have hold : ∀ u z, update D.transports D.nextTAddr (some x) u = some z →
      D.transports u = some z ∨ u = D.nextTAddr ∧ z = x := by
    intro u z hz
    by_cases hu : u = D.nextTAddr
    · rw [hu, update_self, Option.some.injEq] at hz
      exact .inr ⟨hu, hz.symm⟩
    · exact .inl ((update_of_ne hu ..).symm.trans hz)
  intro n d hc
  have hkept : ∀ {i c}, Claims D.loop D.transports D.frameworkFd i c → (table D).Holds i c := h _ _
  cases hc with
  | fde k n d hd hu => exact hkept (.fde k n d hd hu)
  | near u z hz hrun =>
    rcases hold u z hz with hz | ⟨-, rfl⟩
    · exact hkept (.near u z hz hrun)
    · exact absurd hdone hrun
  | far u z hz hrun =>
    rcases hold u z hz with hz | ⟨-, rfl⟩
    · exact hkept (.far u z hz hrun)
    · exact absurd hdone hrun
  | connection u z n hz hn =>
    rcases hold u z hz with hz | ⟨rfl, rfl⟩
    · exact hkept (.connection u z n hz hn)
    · exact holds_iff.mp (hown n hn)
  | framework n hn => exact hkept (.framework n hn)

/-- An `fdevent` is installed and subscribed with a number that is held for it. -/
lemma Owned.install (h : Owned D) {k : FdeId} {d : Desc} {n : ℕ} {L M : Loop FdeId}
    (hd : k.desc = some d)
    (hL : D.loop.fdeventInstall k n = .ok L) (hM : ∀ j i, M.Uses j i → L.Uses j i)
    (huse : M.inUse = L.inUse) (hn : D.holds n d = true) : Owned { D with loop := M } := by
  obtain ⟨T, N, rfl, -, -⟩ := fdeventInstall_ok hL
  rw [Owned, table]
  rw [show ({ D with loop := M } : Daemon).loop.inUse = D.loop.inUse from huse]
  refine Safe.claim h (holds_iff.mp hn) fun i c hc => ?_
  have huses : ∀ j i, M.Uses j i → D.loop.Uses j i ∨ i = n ∧ j = k :=
    fun j i hu => (uses_of_install hL (hM j i hu)).imp_left And.left
  cases hc with
  | fde j i c hc hu =>
    rcases huses j i hu with hu | ⟨rfl, rfl⟩
    · exact .inl (.fde j i c hc hu)
    · rw [hd, Option.some.injEq] at hc
      exact .inr ⟨rfl, hc.symm⟩
  | near t x hx hrun => exact .inl (.near t x hx hrun)
  | far t x hx hrun => exact .inl (.far t x hx hrun)
  | connection t x i hx hi => exact .inl (.connection t x i hx hi)
  | framework i hi => exact .inl (.framework i hi)

/-- A number is opened that nobody keeps yet. -/
lemma Owned.opened (h : Owned D) {n : ℕ} {d : Desc} (hfree : D.loop.inUse n = false) :
    Owned { D with
      loop := { D.loop with inUse := update D.loop.inUse n true }
      owner := update D.owner n (some d) } := by
  refine Safe.opened h hfree fun i c hc => .inl ?_
  exact claims_mono (fun _ _ => uses_of_open) keeps_refl (fun _ => id) hc

theorem owned_effect (he : Effect e D₀ m m') (hwf : Wf m) (hstray : NoStray e D₀)
    (h : Owned m.d) (hw : Waiting m.d.loop) : Owned m'.d := by
  have hset : ∀ {k : FdeId} {ev : BitVec 16} {L : Loop FdeId}, Loop.SetSpec k ev m.d.loop L →
      Owned { m.d with loop := L } :=
    fun hspec => h.loop (fun _ _ => hspec.uses) hspec.inUse
  have hzero : ∀ k, Owned { m.d with loop := m.d.loop.setMem k {} } :=
    fun k => h.loop (fun _ _ => uses_of_zeroed) rfl
  cases he
  case receive u x p rest hx hp hidle => exact h.assign hx ⟨rfl, rfl, rfl, rfl⟩
  case send via p u x hx hmay hopen habout hcmd hsync => exact h.assign hx ⟨rfl, rfl, rfl, rfl⟩
  case okay a r s q p u x ha hs hq hp hr hx hmay hopen howed hcmd hid hdest =>
    exact h.assign hx ⟨rfl, rfl, rfl, rfl⟩
  case tweak u x y hx htweak =>
    refine h.assign hx ?_
    rw [htweak]
    exact ⟨rfl, rfl, rfl, rfl⟩
  case offline u x hx => exact h.assign hx ⟨rfl, rfl, rfl, rfl⟩
  case down u x hx hidle => exact h.assign hx ⟨rfl, rfl, rfl, rfl⟩
  case up u x hx hserve hopen => exact h.assign hx ⟨rfl, rfl, rfl, rfl⟩
  case verified u x hx hidle hok => exact h.assign hx ⟨rfl, rfl, rfl, rfl⟩
  case banner u x text hx hserve =>
    obtain ⟨st, a, b, c, hb⟩ := parseBanner_eq text x
    refine h.assign hx ?_
    rw [hb]
    exact ⟨rfl, rfl, rfl, rfl⟩
  case dropRemote r s u x hs hr hops ht hx => exact h.assign hx ⟨rfl, rfl, rfl, rfl⟩
  case wrteJdwp a r s q p u x ha hs hops hp hto hpass =>
    exact h.assign hto.alive ⟨rfl, rfl, rfl, rfl⟩
  case wrteTracker a r s q p u x ha hs hops hp hto hneed =>
    exact h.assign hto.alive ⟨rfl, rfl, rfl, rfl⟩
  case closedAll u x hidle hx hpc =>
    refine h.assign hx ⟨?_, rfl, rfl, rfl⟩
    simp [Atransport.running, hpc]
  case enlist u x rest hreg hx hstate => exact h.assign hx ⟨rfl, rfl, rfl, rfl⟩
  case freeTransport u x hidle hx hd hrem hhist hreg hin =>
    exact Safe.mono h fun m c hc => claims_mono (fun _ _ => id) keeps_free (fun _ => id) hc
  case output u x y L R os n hidle hx hact hstep => exact h.output hx (hwf.queue.refs u x hx) hstep
  case input u x y L R os n hidle hx hstart hstep => exact h.input hx (hwf.queue.refs u x hx) hstep
  case retire a s i ev L hs ha hops hp hclosing hq hin hspec hev hread => exact hset hspec
  case await a s ev L hs ha hops hp hclosing hl hin hspec hev hread hevents hwrite hlate =>
    exact hset hspec
  case enqueueLink a s p out ev L ha hs hops hclosing hout hin hspec hev hread hcause hblock =>
    exact hset hspec
  case flushed a s ev L ha hs hops hclosing hin hspec hev hread hwrite hevents howed hcause hbef =>
    exact hset hspec
  case subscribe a s ev L hs hops hin hspec hev hread hsmart hwrite => exact hset hspec
  case grant a s ev L hs hops hin hspec hev hread hwrite hp hcredit => exact hset hspec
  case rearm L ev hspec => exact hset hspec
  case createJdwp hfirst => exact hzero _
  case createTracker hfirst => exact hzero _
  case accept a s hs ha hp hops hclosing hl hin => exact hzero _
  case report n ev mask k hn hrep => exact h.loop (fun _ _ => uses_of_report ev) (inUse_report k ev)
  case dispatch k L hd => exact h.loop (fun _ _ => uses_of_dispatch hd) (inUse_dispatch hd)
  case force n k ev hk hev => exact h.loop (fun _ _ hu => uses_setMem hu rfl rfl) rfl
  case wrteRead a r s q p u x ev L ha hs hops hp hto hin hspec hev hread hwrite hevents hsub hbytes
      hX => exact (hset hspec).assign hto.alive ⟨rfl, rfl, rfl, rfl⟩
  case pair a s id u x hs hp hclosing hl hin hnew hx hserve honline opened hopened =>
    exact (hzero _).assign hx ⟨rfl, rfl, rfl, rfl⟩
  case uninstall a L hs ha hspec => exact h.uninstall hspec
  case createFd n L hfirst hown hins =>
    exact (hzero _).install rfl hins (fun _ _ => id) rfl hown
  case confirm u n p L M hp hcmd hn hfwd hhist hL hM =>
    have hspec := fdeventSet_spec hM
    exact h.install rfl hL (fun _ _ => hspec.uses) hspec.inUse
      (holds_iff.mpr (h _ _ (.framework n hn)))
  case authDropped u L hremove => exact h.dropped hw hremove
  case connected n hfree =>
    refine Safe.opened h hfree fun i c hc => ?_
    cases hc with
    | fde j i c hc hu => exact .inl (.fde j i c hc (uses_of_open hu))
    | near t x hx hrun => exact .inl (.near t x hx hrun)
    | far t x hx hrun => exact .inl (.far t x hx hrun)
    | connection t x i hx hi => exact .inl (.connection t x i hx hi)
    | framework i hi => exact .inr ⟨(Option.some.inj hi).symm, rfl⟩
  case register x hx hown => exact h.register hx fun n hn => (hown n hn).2
  case start u x rest n k L M hreg hx hn hk hnk hL hM =>
    exact h.start hx hn hk hnk hL (fdeventSet_spec hM) rfl rfl rfl
  case unplug u x rest L hreg hx hrem hsame hL own own' =>
    obtain ⟨z, hz, hdone⟩ := hwf.queue.queued u .remove (hreg ▸ List.mem_cons_self)
    cases hx.symm.trans hz
    refine h.unplug hx hdone hL ?_
    rw [table, hsame.1, hsame.2.1]
    exact hstray u x hrem (hsame.2.2 ▸ hx)
  case opened n d hfree => exact h.opened hfree
  case closed n hn =>
    refine Safe.close h (holds_iff.mp hn).spare rfl (fun i hi => update_of_ne hi ..)
      fun i c hc => ⟨?_, fun hno => hc.ne_other hno.2⟩
    exact claims_mono (fun _ _ => uses_of_close) keeps_refl (fun _ => id) hc
  all_goals exact h

/-! ## The number of a waiting key -/

/-- The number of a key that waits is held for the framework, so what is held for something else
has another one. -/
lemma Owned.ne (h : Owned D) {n i : ℕ} {d : Desc} (hu : D.loop.Uses (.auth t) n)
    (hi : (table D).Spare i d) (hd : d ≠ .framework) : n ≠ i := by
  rintro rfl
  have hheld : (table D).Holds n .framework := h n .framework (.fde (.auth t) n _ rfl hu)
  exact hd (hheld.unique hi).symm

lemma Owned.apart (h : Owned D) {n i : ℕ} {k : FdeId} {d : Desc}
    (hu : D.loop.Uses (.auth t) n) (hk : k.desc = some d) (hd : d ≠ .framework)
    (hi : D.loop.Uses k i) : n ≠ i :=
  h.ne hu (h i d (.fde k i d hk hi)).spare hd

/-- A key that waits keeps its slot and its subscription. -/
theorem waiting_effect (he : Effect e D₀ m m') (h : Owned m.d) (h' : Owned m'.d)
    (hw : Waiting m.d.loop) : Waiting m'.d.loop := by
  have hset : ∀ {a : Addr} {ev : BitVec 16} {L : Loop FdeId},
      Loop.SetSpec (.socket a) ev m.d.loop L → Waiting L :=
    fun hspec => hw.set hspec fun _ _ _ hu hi => h.apart hu rfl Desc.noConfusion hi
  have hzero : ∀ a, Waiting (m.d.loop.setMem (.socket a) {}) :=
    fun a => hw.same rfl rfl rfl fun _ _ => uses_of_zeroed
  have hopen : ∀ t n, m'.d.loop.Uses (.auth t) n → m'.d.loop.inUse n = true :=
    fun t n hu => (h' n .framework (.fde (.auth t) n _ rfl hu)).1
  cases he
  case retire a s i ev L hs ha hops hp hclosing hq hin hspec hev hread => exact hset hspec
  case await a s ev L hs ha hops hp hclosing hl hin hspec hev hread hevents hwrite hlate =>
    exact hset hspec
  case enqueueLink a s p out ev L ha hs hops hclosing hout hin hspec hev hread hcause hblock =>
    exact hset hspec
  case flushed a s ev L ha hs hops hclosing hin hspec hev hread hwrite hevents howed hcause hbef =>
    exact hset hspec
  case subscribe a s ev L hs hops hin hspec hev hread hsmart hwrite => exact hset hspec
  case grant a s ev L hs hops hin hspec hev hread hwrite hp hcredit => exact hset hspec
  case wrteRead a r s q p u x ev L ha hs hops hp hto hin hspec hev hread hwrite hevents hsub hbytes
      hX => exact hset hspec
  case rearm L ev hspec =>
    exact hw.set hspec fun _ _ _ hu hi => h.apart hu rfl Desc.noConfusion hi
  case uninstall a L hs ha hspec =>
    exact hw.remove hspec fun _ _ _ hu _ hi => h.apart hu rfl Desc.noConfusion hi
  case createJdwp hfirst => exact hzero _
  case createTracker hfirst => exact hzero _
  case accept a s hs ha hp hops hclosing hl hin => exact hzero _
  case pair a s id u x hs hp hclosing hl hin hnew hx hserve honline opened hopened =>
    exact hzero _
  case createFd n L hfirst hown hins =>
    refine (hzero _).install hins rfl fun t i hu => ?_
    exact h.ne (uses_of_zeroed hu) (holds_iff.mp hown).spare Desc.noConfusion
  case report n ev mask k hn hrep => exact hw.report k ev
  case dispatch k L hd => exact hw.dispatch hd
  case force n k ev hk hev =>
    exact hw.same rfl rfl rfl fun _ _ hu => uses_setMem hu rfl rfl
  case confirm u n p L M hp hcmd hn hfwd hhist hL hM => exact hw.confirm hL hM
  case authDropped u L hremove => exact hw.removeAuth (fdeventRemove_spec hremove)
  case connected n hfree => exact hw.same rfl rfl rfl fun _ _ => uses_of_open
  case opened n d hfree => exact hw.same rfl rfl rfl fun _ _ => uses_of_open
  case closed n hn => exact hw.closes ((closes_refl _).close n) hopen
  case start u x rest n k L M hreg hx hn hk hnk hL hM =>
    have hopened : Waiting { m.d.loop with
        inUse := update (update m.d.loop.inUse n true) k true } :=
      hw.same rfl rfl rfl fun _ _ => uses_of_open
    refine hopened.subscribe hL (fdeventSet_spec hM) rfl fun t i hu => ?_
    rintro rfl
    have hheld := h i .framework (.fde (.auth t) i _ rfl (uses_of_open hu))
    exact absurd (hheld.1.symm.trans hn) (by decide)
  case unplug u x rest L hreg hx hrem hsame hL own own' =>
    have hgone : Waiting L := hw.remove (fdeventRemove_spec hL)
      fun _ _ _ hu _ hi => h.apart hu rfl Desc.noConfusion hi
    exact hgone.closes ((closes_refl L).close x.fd) hopen
  case output u x y L R os n hidle hx hact hstep =>
    have hcloses := hstep.closes (P := Closes m.d.loop) (fun _ i hc => hc.close i) (closes_refl _)
    exact hw.closes hcloses hopen
  case input u x y L R os n hidle hx hstart hstep =>
    have hcloses := hstep.closes (P := Closes m.d.loop) (fun _ i hc => hc.close i) (closes_refl _)
    exact hw.closes hcloses hopen
  all_goals exact hw

end Changes

/-! ## Runs -/

/-- Every number the daemon keeps is its own, and the keys that wait are found. -/
structure InOrder (D : Daemon) : Prop where
  owned : Owned D
  waiting : Waiting D.loop

section Runs

variable {D D' : Daemon} {k : FdeId} {d : Desc}

lemma inOrder_kept : Kept NoStray fun m => InOrder m.d := by
  intro e D m m' hstray _ _ _ hwf h he
  have howned := owned_effect he hwf hstray h.owned h.waiting
  exact ⟨howned, waiting_effect he h.owned howned h.waiting⟩

lemma InOrder.takeFd {fd : Option ℕ} (h : InOrder D) (hfd : D.takeFd d = .ok (fd, D')) :
    InOrder D' ∧ ∀ n, fd = some n → D'.holds n d = true := by
  rcases takeFd_cases d D with hnone | ⟨n, fds, hfree, hsome⟩ | herror
  · cases hnone.symm.trans hfd
    refine ⟨h, fun n hn => ?_⟩
    cases hn
  · cases hsome.symm.trans hfd
    have hwaiting : Waiting (D.opened n d fds).loop :=
      h.waiting.same rfl rfl rfl fun _ _ => uses_of_open
    refine ⟨⟨h.owned.opened hfree, hwaiting⟩, fun i hi => ?_⟩
    cases hi
    rw [holds_iff]
    exact ⟨update_self .., update_self ..⟩
  · cases herror.symm.trans hfd

/-- A listener is installed with a number of its own. -/
lemma InOrder.listenOn {ok : Bool} (h : InOrder D) (hk : k.desc = some (.listener k))
    (hlisten : D.listenOn k = .ok (ok, D')) : InOrder D' := by
  rw [Daemon.listenOn, bind_eq_ok_iff] at hlisten
  obtain ⟨⟨fd, D₁⟩, hfd, hlisten⟩ := hlisten
  obtain ⟨h₁, hheld⟩ := h.takeFd hfd
  cases fd with
  | none =>
    cases hlisten
    exact h₁
  | some n =>
    have hn := hheld n rfl
    rw [bind_eq_ok_iff] at hlisten
    obtain ⟨D₂, hins, hlisten⟩ := hlisten
    rw [bind_eq_ok_iff] at hlisten
    obtain ⟨D₃, hadd, hlisten⟩ := hlisten
    cases hlisten
    rw [onLoop, bind_eq_ok_iff] at hins hadd
    obtain ⟨L, hL, hins⟩ := hins
    cases hins
    obtain ⟨M, hM, hadd⟩ := hadd
    cases hadd
    have hset := Loop.fdeventSet_spec hM
    have hauth : k.isAuth = false := by
      cases k with
      | auth t => cases hk
      | _ => rfl
    refine ⟨h₁.owned.install hk hL (fun _ _ => hset.uses) hset.inUse hn, ?_⟩
    exact h₁.waiting.subscribe hL hset hauth fun t i hu =>
      h₁.owned.ne hu (holds_iff.mp hn).spare Desc.noConfusion

/-- Before the first event the daemon has nothing but its listeners. -/
lemma inOrder_adbMain {config : Config} {fds : List ℕ} {inUse : ℕ → Bool}
    (hmain : adbMain config fds inUse = .ok D) : InOrder D := by
  refine adbMain_induction ⟨?_, .inl rfl, ?_⟩ ?_ ?_ hmain
  · intro n d hc
    cases hc with
    | fde k n d hd hu =>
      have hno : has 0#16 fdeActive = true := hu.installed
      exact absurd hno (by decide)
    | near t x hx => cases hx
    | far t x hx => cases hx
    | connection t x n hx => cases hx
    | framework n hn => cases hn
  · intro t n hu
    have hno : has 0#16 fdeActive = true := hu.installed
    exact absurd hno (by decide)
  · exact fun D d fd D' h hfd => (h.takeFd hfd).1
  · intro D k ok D' hk h hlisten
    refine h.listenOn ?_ hlisten
    simp only [List.mem_cons, List.not_mem_nil, or_false] at hk
    rcases hk with rfl | rfl | rfl | rfl | rfl <;> rfl

lemma inOrder_of_reachableBy (h : ReachableBy NoStray D) : InOrder D :=
  inOrder_kept.reachableBy (fun _ _ _ _ hmain => inOrder_adbMain hmain) h

/-- In every run in which the second close of a pair's end hits no number that has been handed out
again, every number the daemon keeps is its own, in every state. -/
theorem descriptors_owned (h : ReachableBy NoStray D) : Owned D :=
  (inOrder_of_reachableBy h).owned

end Runs

/-! ## A run -/

section Run

open PeerLinks

/-- `NoStray`, as a test. -/
def noStray (e : Event) (D : Daemon) : Bool :=
  match D.delivered e, D.registration with
  | some (.registration, _, _), (t, .remove) :: _ =>
    (D.transports t).all fun x => !D.loop.inUse x.fd || D.owner x.fd = some (.transportFd t)
  | _, _ => true

lemma noStray_of_test {e : Event} {D : Daemon} (h : noStray e D = true) : NoStray e D := by
  rintro t x ⟨ev, rs, rest, hdel, -, hreg⟩ hx
  rw [noStray, hdel, hreg] at h
  simp only [hx, Option.all_some, Bool.or_eq_true, Bool.not_eq_true', decide_eq_true_eq] at h
  intro huse
  exact h.resolve_left fun hno => absurd (huse.symm.trans hno) (by decide)

/-- A connection is closed by the other side and its transport removed; the next one is given the
same numbers. -/
def oneAfterAnother : List Event :=
  connect 0 10 11 12 ++ List.replicate 6 ⟨.output 0, {}⟩ ++ handleNext 11 {} ++
    List.replicate 5 ⟨.input 0, {}⟩ ++ handleNext 4 {} ++ connect 1 10 11 12

/-- The theorem on that run: the numbers are the second transport's. -/
theorem descriptors_owned_reused : ∃ D, ReachableBy NoStray D ∧ D.transports 0 = none ∧
    D.holds 10 (.sfd 1) = true ∧ D.holds 12 (.transportFd 1) = true ∧ Owned D := by
  obtain ⟨D, hD, hshows⟩ := @exists_reachableBy NoStray (Bool × Bool × Bool) {}
    [3, 4, 5, 6, 7, 8, 9] (fun _ => false) oneAfterAnother noStray
    (fun D => ((D.transports 0).isNone, D.holds 10 (.sfd 1), D.holds 12 (.transportFd 1)))
    (true, true, true) (fun e D _ hc => noStray_of_test hc) (by decide +kernel)
  simp only [Prod.mk.injEq] at hshows
  obtain ⟨hgone, hsfd, hfar⟩ := hshows
  exact ⟨D, hD, Option.isNone_iff_eq_none.mp hgone, hsfd, hfar, descriptors_owned hD⟩

end Run

end DescriptorOwners

end Adbd
