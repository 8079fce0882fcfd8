import Adbd.Accounts.Data

/-!
# Accounts: services and packets

`handle_packet` takes the packet it is given, and every message it makes goes to the transport.

The cost of a packet is the number of places its answers take in the queue to the `input_thread`:
`answers` reads it off the command.  An `A_OPEN` may take one for the `A_OKAY` and one for what
the service says at once, an `A_WRTE` one for what `enqueue` sends and one for the `A_OKAY`; an
`A_SYNC` takes one for the echo, which is the packet itself, and a host may say who it is after it.

The packet goes back to the pool, except when it is handed on: the echo of an `A_SYNC` belongs to
the `input_thread`, an `A_WRTE` to the socket it was enqueued on.  `forgets` is the case in which
nobody has it afterwards: nothing was queued on the socket and the first write to it failed.
-/

namespace Adbd

open Function Transition

namespace Daemon

variable {D : Daemon} {a : Addr} {s : Asocket} {t : TAddr} {x : Atransport} {p : Apacket}

/-! ## Services -/

lemma serviceToFd_balanced (hD : D.Sane) (name : List UInt8) :
    Balanced 0 0 Prod.snd D (D.serviceToFd name) fun _ => True := by
  have htake : ∀ {D : Daemon}, D.Sane → ∀ d, Balanced 0 0 Prod.snd D (D.takeFd d) fun _ => True :=
    fun hD d => (takeFd_balanced hD d).mono rfl (le_refl _) fun _ _ => trivial
  rw [serviceToFd]
  split
  · exact .ok (.refl hD) trivial
  · rw [createJdwpConnectionFd, hD.noProcess]
    exact .ok (.refl hD) trivial
  · refine (htake hD _).seq fun y h₁ _ => ?_
    refine (htake h₁.sane _).seq fun z h₂ _ => ?_
    obtain ⟨near, D₁⟩ := y
    obtain ⟨far, D₂⟩ := z
    dsimp only at h₁ h₂ ⊢
    split
    · exact .ok (.refl h₂.sane) trivial
    · exact .ok (.refl h₂.sane) trivial
    · exact .error (by simp)
  · exact htake hD _

/-- A service that is started has a socket of the lists. -/
lemma createLocalServiceSocket_balanced (hD : D.Sane) (name : List UInt8) :
    Balanced 0 0 Prod.snd D (D.createLocalServiceSocket name) fun y =>
      ∀ a, y.1 = some a → LocalAt a y.2 := by
  have hsome : ∀ {a b : Addr} {D' : Daemon}, LocalAt a D' → some a = some b → LocalAt b D' := by
    intro a b D' h hab
    cases hab
    exact h
  rw [createLocalServiceSocket]
  split
  · refine (createJdwpServiceSocket_balanced hD).seq fun y h₁ hl => ?_
    exact .ok (.refl h₁.sane) fun b => hsome hl
  split
  · refine (createJdwpTrackerServiceSocket_balanced hD).seq fun y h₁ hl => ?_
    exact .ok (.refl h₁.sane) fun b => hsome hl
  refine (serviceToFd_balanced hD name).seq fun y h₁ _ => ?_
  obtain ⟨fd, D₁⟩ := y
  dsimp only at h₁ ⊢
  cases fd with
  | none => exact .ok (.refl h₁.sane) fun b h => by cases h
  | some n =>
    refine (createLocalSocket_balanced h₁.sane n).seq fun y h₂ hl => ?_
    obtain ⟨a, D₂⟩ := y
    dsimp only at h₂ hl ⊢
    refine (deref_balanced h₂.sane a).seq fun s _ hs => ?_
    obtain ⟨s', hs', hlocal⟩ := hl
    cases hs.symm.trans hs'
    split
    · refine .ok (.assign h₂.sane hs { s with exitOnClose := true } rfl (.inr rfl) rfl rfl)
        fun b => hsome ⟨_, setSocket_sockets_self .., hlocal⟩
    · exact .ok (.refl h₂.sane) fun b => hsome ⟨s, hs, hlocal⟩

/-- A client of the smart-socket listener is paired with a smart socket. -/
lemma ssListenerEventFunc_balanced (hD : D.Sane) (ev : BitVec 16) :
    Balanced 0 1 (fun D' => D') D (D.ssListenerEventFunc ev) fun _ => True := by
  rw [ssListenerEventFunc]
  split
  · refine (takeFd_balanced hD _).seq fun y h₁ _ => ?_
    obtain ⟨fd, D₁⟩ := y
    dsimp only at h₁ ⊢
    cases fd with
    | none => exact .ok ((Books.refl h₁.sane).mono rfl (Nat.zero_le _)) trivial
    | some n =>
      refine (createLocalSocket_balanced h₁.sane n).seq fun y h₂ hl => ?_
      exact connectToSmartsocket_balanced h₂.sane hl
  · exact .ok ((Books.refl hD).mono rfl (Nat.zero_le _)) trivial

/-- A process that connects to the JDWP socket stops the daemon. -/
lemma jdwpControlEvent_balanced (hD : D.Sane)
    (hkernel : ∀ n entry, D.loop.interest n = some entry → D.loop.inUse n = true)
    (ev : BitVec 16) :
    Balanced 0 0 (fun D' => D') D (D.jdwpControlEvent ev) fun _ => True := by
  rw [jdwpControlEvent]
  split
  case isFalse => exact .ok (.refl hD) trivial
  rcases takeFd_cases .jdwpProcess D with hfd | ⟨n, fds, hn, hfd⟩ | hfd
  all_goals rw [hfd]
  · exact .ok (.refl hD) trivial
  · have hnone : D.loop.interest n = none := by
      by_contra hsome
      obtain ⟨entry, he⟩ := Option.ne_none_iff_exists'.mp hsome
      rw [hkernel n entry he] at hn
      cases hn
    show Balanced 0 0 _ D ((D.opened n .jdwpProcess fds).jdwpProcessAlloc n) _
    rcases jdwpProcessAlloc_stops (D := D.opened n .jdwpProcess fds) hnone with hstop | hstop
    all_goals
      rw [hstop]
      exact .error (by simp)
  · exact .error (by simp)

lemma jdwpProcessEvent_balanced (hD : D.Sane) (ev : BitVec 16) (i : ℕ) :
    Balanced 0 0 (fun D' => D') D (D.jdwpProcessEvent ev i) fun _ => True := by
  rw [jdwpProcessEvent, findProcess, hD.noProcess]
  exact .error (by simp)

/-! ## Going online and offline -/

/-- Assigning to fields of a transport other than its queues. -/
lemma modifyT_balanced' (hD : D.Sane) (t : TAddr) {f : Atransport → Atransport}
    (hf : ∀ x, (f x).toMain = x.toMain ∧ (f x).toInput = x.toInput) :
    Balanced 0 0 (fun D' => D') D (D.modifyT t f) fun _ => True :=
  (modifyT_balanced hD t (fun x => (hf x).1) fun x => (hf x).2).mono rfl (le_refl _)
    fun _ _ => trivial

lemma Recorded.setTransport (h : Recorded t D) (hx : D.transports t = some x) {x' : Atransport}
    (hdis : x'.disconnects = x.disconnects) : Recorded t (D.setTransport t x') := by
  intro y r s hy hr hs
  cases (update_self ..).symm.trans hy
  exact h x r s hx (hdis ▸ hr) hs

lemma handleOffline_balanced (hD : D.Sane) (hrec : Recorded t D) :
    Balanced 0 0 (fun D' => D') D (D.handleOffline t) fun _ => True := by
  refine (modifyT_balanced hD t (f := fun x => { x with online := false }) (fun _ => rfl)
    fun _ => rfl).seq fun D₁ h₁ hset => ?_
  obtain ⟨x, hx, rfl⟩ := hset
  exact runTransportDisconnects_balanced h₁.sane (hrec.setTransport hx rfl)

/-! ## What the daemon sends of its own -/

lemma sendConnect_balanced (hD : D.Sane) (t : TAddr) :
    Balanced 0 1 (fun D' => D') D (D.sendConnect t) fun _ => True := by
  rw [sendConnect]
  split
  · exact .error (by simp)
  · exact (sendMsg_balanced hD none _ _ t).mono rfl (le_refl _) fun _ _ => trivial

lemma sendAuthRequest_balanced (hD : D.Sane) (t : TAddr) :
    Balanced 0 1 (fun D' => D') D (D.sendAuthRequest t) fun _ => True := by
  have hnothing : Balanced 0 1 (fun D' => D') D (.ok D) fun _ => True :=
    .ok ((Books.refl hD).mono rfl (Nat.zero_le _)) trivial
  rw [sendAuthRequest]
  split
  · exact hnothing
  · split
    · refine (modifyT_balanced' hD t fun _ => by exact ⟨rfl, rfl⟩).seq fun D₁ h₁ _ => ?_
      exact (sendMsg_balanced h₁.sane none _ _ t).mono rfl (le_refl _) fun _ _ => trivial
    · exact hnothing

/-- `send_auth_publickey` asks for a packet and gives it back. -/
lemma sendAuthPublickey_books (hD : D.Sane) : Books 0 0 D D.sendAuthPublickey := by
  have hget := Books.getApacket hD
  exact (hget.trans (Books.putApacket hget.sane _)).mono (single_cancel _) (le_refl _)

lemma adbAuthVerified_balanced (hD : D.Sane) (t : TAddr) :
    Balanced 0 1 (fun D' => D') D (D.adbAuthVerified t) fun _ => True := by
  have hnote : Books 0 0 D (D.emit (.verified t)) := .quiet hD rfl
  refine .next hnote ((modifyT_balanced' hnote.sane t fun _ => by exact ⟨rfl, rfl⟩).seq
    fun D₁ h₁ _ => ?_)
  exact sendConnect_balanced h₁.sane t

lemma adbAuthConfirmKey_balanced (hD : D.Sane) (p : Apacket) (t : TAddr) :
    Balanced 0 0 (fun D' => D') D (D.adbAuthConfirmKey p t) fun _ => True := by
  rw [adbAuthConfirmKey]
  split
  · exact .ok (.refl hD) trivial
  split
  · exact .ok (.refl hD) trivial
  have hcstr : Balanced 0 0 (fun _ => D) D (cstr p.data) fun _ => True := by
    rw [cstr]
    split
    · exact .ok (.refl hD) trivial
    · exact .error (by simp)
  refine hcstr.seq fun key _ _ => ?_
  dsimp only
  split
  · exact .ok (.refl hD) trivial
  split
  · exact .ok (.quiet hD rfl) trivial
  case h_2 ws _ =>
    have hnote : Books 0 0 D ((D.setWrites ws).emit (.confirm t)) := .quiet hD rfl
    refine .next hnote ((onLoop_balanced hnote.sane fun _ h => fdeventInstall_notFull h).seq
      fun D₁ h₁ _ => ?_)
    exact (onLoop_balanced h₁.sane fun _ h => fdeventAdd_notFull h).mono rfl (le_refl _)
      fun _ _ => trivial

lemma adbAuthEvent_balanced (hD : D.Sane) (ev : BitVec 16) (t : TAddr) :
    Balanced 0 1 (fun D' => D') D (D.adbAuthEvent ev t) fun _ => True := by
  rw [adbAuthEvent]
  split
  case isFalse => exact .ok ((Books.refl hD).mono rfl (Nat.zero_le _)) trivial
  split
  case h_1 rs _ =>
    have hread : Books 0 0 D (D.setReads rs) := .quiet hD rfl
    refine .next hread ((derefT_balanced hread.sane t).seq fun x _ _ => ?_)
    refine (onLoop_balanced hread.sane fun _ h => fdeventRemove_notFull h).seq fun D₁ h₁ _ => ?_
    exact .ok ((Books.quiet h₁.sane (by rfl)).mono rfl (Nat.zero_le _)) trivial
  case h_2 response rs _ =>
    have hread : Books 0 0 D (D.setReads rs) := .quiet hD rfl
    refine .next hread ?_
    dsimp only
    split
    · exact adbAuthVerified_balanced hread.sane t
    · exact .ok ((Books.refl hread.sane).mono rfl (Nat.zero_le _)) trivial

lemma adbAuthListener_balanced (hD : D.Sane) :
    Balanced 0 0 (fun D' => D') D D.adbAuthListener fun _ => True := by
  refine (takeFd_balanced hD _).seq fun y h₁ _ => ?_
  obtain ⟨fd, D₁⟩ := y
  dsimp only at h₁ ⊢
  cases fd with
  | none => exact .ok (.refl h₁.sane) trivial
  | some n => exact .ok (.quiet h₁.sane rfl) trivial

/-! ## `handle_packet` -/

/-- The socket list holds sockets of the lists only. -/
def Listed (D : Daemon) : Prop := ∀ a ∈ D.localSocketList, LocalAt a D

lemma Listed.found (h : Listed D) {id : UInt32} (ha : D.findLocalSocket id = some a) :
    LocalAt a D :=
  h a (List.mem_of_find?_eq_some ha)

/-- An `A_SYNC` is handed on again, as it is; a host says who it is as well. -/
lemma handleSync_balanced (hD : D.Sane) (hrec : Recorded t D) :
    Balanced (Pi.single p.addr 1) (if D.config.host then 2 else 1) (fun D' => D') D
      (D.handleSync p t) fun _ => True := by
  rw [handleSync]
  by_cases harg : p.msg.arg0 ≠ 0
  · rw [if_pos harg]
    by_cases hhost : D.config.host = true
    · rw [if_pos hhost]
      refine (sendPacket_balanced hD none p t).bind 0 1 (fun D₁ h₁ _ => ?_) (add_zero _) (le_refl _)
      rw [h₁.config, if_pos hhost]
      exact sendConnect_balanced h₁.sane t
    · rw [if_neg hhost]
      refine (sendPacket_balanced hD none p t).bind 0 0 (fun D₁ h₁ _ => ?_) (add_zero _) (le_refl _)
      rw [h₁.config, if_neg hhost]
      exact .ok (.refl h₁.sane) trivial
  · rw [if_neg harg]
    refine (modifyT_balanced hD t (f := fun x => { x with connectionState := .offline })
      (fun _ => rfl) fun _ => rfl).seq fun D₁ h₁ hset => ?_
    obtain ⟨x, hx, rfl⟩ := hset
    refine (handleOffline_balanced h₁.sane (hrec.setTransport hx rfl)).seq fun D₂ h₂ _ => ?_
    exact (sendPacket_balanced h₂.sane none p t).mono rfl (by split <;> omega) fun _ _ => trivial

lemma handleCnxn_balanced (hD : D.Sane) (hrec : Recorded t D) :
    Balanced 0 1 (fun D' => D') D (D.handleCnxn p t) fun _ => True := by
  rw [handleCnxn]
  refine (derefT_balanced hD t).seq fun x _ hx => ?_
  have hdown : Balanced 0 0 (fun D' => D') D (if x.connectionState ≠ .offline then do
      let D ← D.modifyT t fun x => { x with connectionState := .offline }
      D.handleOffline t
    else pure D) fun _ => True := by
    split
    · refine (modifyT_balanced hD t (f := fun x => { x with connectionState := .offline })
        (fun _ => rfl) fun _ => rfl).seq fun D₁ h₁ hset => ?_
      obtain ⟨x, hx, rfl⟩ := hset
      exact handleOffline_balanced h₁.sane (hrec.setTransport hx rfl)
    · exact .ok (.refl hD) trivial
  refine hdown.seq fun D₁ h₁ _ => ?_
  have hcstr : Balanced 0 0 (fun _ => D₁) D₁ (cstr p.data) fun _ => True := by
    rw [cstr]
    split
    · exact .ok (.refl h₁.sane) trivial
    · exact .error (by simp)
  refine hcstr.seq fun banner _ _ => ?_
  refine (modifyT_balanced' h₁.sane t fun y => ?_).seq fun D₂ h₂ _ => ?_
  · obtain ⟨st, a, b, c, hb⟩ := parseBanner_eq banner y
    rw [hb]
    exact ⟨rfl, rfl⟩
  split
  · refine (modifyT_balanced' h₂.sane t fun _ => by exact ⟨rfl, rfl⟩).seq fun D₃ h₃ _ => ?_
    split
    · exact .ok ((Books.refl h₃.sane).mono rfl (Nat.zero_le _)) trivial
    · exact sendConnect_balanced h₃.sane t
  · exact sendAuthRequest_balanced h₂.sane t

lemma handleAuth_balanced (hD : D.Sane) :
    Balanced 0 1 (fun D' => D') D (D.handleAuth p t) fun _ => True := by
  rw [handleAuth]
  split
  · exact .ok ((sendAuthPublickey_books hD).mono rfl (Nat.zero_le _)) trivial
  split
  · refine (derefT_balanced hD t).seq fun x _ _ => ?_
    split
    · refine (adbAuthVerified_balanced hD t).bind 0 0 (fun D₁ h₁ _ => ?_) (add_zero _) (le_refl _)
      exact modifyT_balanced' h₁.sane t fun _ => ⟨rfl, rfl⟩
    · refine (modifyT_balanced' hD t fun _ => by exact ⟨rfl, rfl⟩).seq fun D₁ h₁ _ => ?_
      exact sendAuthRequest_balanced h₁.sane t
  split
  · exact (adbAuthConfirmKey_balanced hD p t).mono rfl (Nat.zero_le _) fun _ h => h
  · exact .ok ((Books.refl hD).mono rfl (Nat.zero_le _)) trivial

/-- An `A_OPEN` is answered with an `A_CLSE`, or with an `A_OKAY` and what the service has to
say at once. -/
lemma handleOpen_balanced (hD : D.Sane) :
    Balanced 0 2 (fun D' => D') D (D.handleOpen p t) fun _ => True := by
  rw [handleOpen]
  refine (derefT_balanced hD t).seq fun x _ _ => ?_
  split
  · exact .ok ((Books.refl hD).mono rfl (Nat.zero_le _)) trivial
  refine (createLocalServiceSocket_balanced hD _).seq fun y h₁ hl => ?_
  obtain ⟨made, D₁⟩ := y
  dsimp only at h₁ hl ⊢
  cases made with
  | none =>
    have hnote : Books 0 0 D₁ (D₁.emit (.refused t p.msg.arg0)) := .quiet h₁.sane rfl
    exact .next hnote ((sendMsg_balanced hnote.sane none _ _ t).mono rfl (by omega)
      fun _ _ => trivial)
  | some a =>
    refine (pairRemote_balanced h₁.sane (hl a rfl) p.msg.arg0 t).seq fun y h₂ _ => ?_
    obtain ⟨r, D₂⟩ := y
    dsimp only at h₂ ⊢
    have hnote : Books 0 0 D₂ (D₂.emit (.opened r a)) := .quiet h₂.sane rfl
    refine .next hnote ((deref_balanced hnote.sane a).seq fun s _ _ => ?_)
    refine (deref_balanced hnote.sane r).seq fun q _ _ => ?_
    refine (sendMsg_balanced hnote.sane (some r) _ _ t).bind 0 1 (fun D₃ h₃ _ => ?_) (add_zero _)
      (le_refl _)
    exact ready_balanced h₃.sane a

lemma handleOkay_balanced (hD : D.Sane) (hl : Listed D) :
    Balanced 0 1 (fun D' => D') D (D.handleOkay p t) fun _ => True := by
  rw [handleOkay]
  refine (derefT_balanced hD t).seq fun x _ _ => ?_
  split
  · exact .ok ((Books.refl hD).mono rfl (Nat.zero_le _)) trivial
  cases hfind : D.findLocalSocket p.msg.arg1 with
  | none => exact .ok ((Books.refl hD).mono rfl (Nat.zero_le _)) trivial
  | some a =>
    refine (deref_balanced hD a).seq fun s _ _ => ?_
    refine Balanced.seq (p := fun D' => D') (Q := fun _ => True) ?_
      fun D₁ h₁ _ => ready_balanced h₁.sane a
    split
    · refine (pairRemote_balanced hD (hl.found hfind) p.msg.arg0 t).seq fun y h₁ _ => ?_
      exact .ok (.refl h₁.sane) trivial
    · exact .ok (.refl hD) trivial

lemma handleClse_balanced (hD : D.Sane) :
    Balanced 0 1 (fun D' => D') D (D.handleClse p t) fun _ => True := by
  rw [handleClse]
  refine (derefT_balanced hD t).seq fun x _ _ => ?_
  split
  · exact .ok ((Books.refl hD).mono rfl (Nat.zero_le _)) trivial
  cases D.findLocalSocket p.msg.arg1 with
  | none => exact .ok ((Books.refl hD).mono rfl (Nat.zero_le _)) trivial
  | some a => exact close_balanced hD a

/-- `handle_packet` would forget the packet. -/
def forgets (p : Apacket) (t : TAddr) (D : Daemon) : Bool :=
  p.msg.command = aWrte && (D.transports t).any (·.online) &&
    (D.findLocalSocket p.msg.arg1).any fun a =>
      D.drops a { p with len := p.msg.dataLength.toNat }

/-- What `handle_packet` does with the packet it is given. -/
def kept (p : Apacket) (t : TAddr) (D : Daemon) : ℕ → ℤ :=
  if D.forgets p t then 0 else Pi.single p.addr 1

lemma kept_of_not (h : D.forgets p t = false) : D.kept p t = Pi.single p.addr 1 := by
  rw [kept, h]
  rfl

/-- An `A_WRTE` is enqueued, and released by the caller if there is no socket to take it. -/
lemma handleWrte_balanced (hD : D.Sane) (hcmd : p.msg.command = aWrte) :
    Balanced (D.kept p t) 2 (fun D' => D') D
      (D.handleWrte p t >>= fun y => pure (if y.1 then y.2.putApacket p else y.2))
      fun _ => True := by
  rw [handleWrte, bind_assoc]
  refine (derefT_balanced hD t).seq fun x _ hx => ?_
  have hreturned : Books (Pi.single p.addr 1) 2 D (D.putApacket p) :=
    (Books.putApacket hD p).mono rfl (Nat.zero_le _)
  split
  case isTrue hoffline =>
    rw [kept_of_not (by simp [forgets, hx, hoffline])]
    exact .ok hreturned trivial
  case isFalse honline =>
    cases hfind : D.findLocalSocket p.msg.arg1 with
    | none =>
      rw [kept_of_not (by simp [forgets, hfind])]
      exact .ok hreturned trivial
    | some a =>
      have hkept : D.kept p t = D.taken a { p with len := p.msg.dataLength.toNat } := by
        rw [kept, taken]
        have hsame : D.forgets p t = D.drops a { p with len := p.msg.dataLength.toNat } := by
          simpa [forgets, hx, hfind, hcmd] using fun _ => honline
        rw [hsame]
      rw [hkept]
      dsimp only
      rw [bind_assoc]
      refine (deref_balanced hD a).seq fun s _ _ => ?_
      rw [bind_assoc]
      refine (enqueue_balanced hD a _).bind 0 1 (fun y h₁ _ => ?_) (add_zero _) (le_refl _)
      obtain ⟨res, D₁⟩ := y
      dsimp only at h₁ ⊢
      have hready : Balanced 0 1 (fun D' => D') D₁ (if res = 0 then
          D₁.sendReady (D.remoteOf s) s.id p.msg.arg0 t else pure D₁) fun _ => True := by
        split
        · exact (sendMsg_balanced h₁.sane _ _ _ t).mono rfl (le_refl _) fun _ _ => trivial
        · exact .ok ((Books.refl h₁.sane).mono rfl (Nat.zero_le _)) trivial
      rw [bind_assoc]
      refine hready.bind 0 0 (fun D₂ h₂ _ => ?_) (add_zero _) (le_refl _)
      exact .ok (.refl h₂.sane) trivial

/-- How many packets `handle_packet` answers a packet with at most. -/
def answers (p : Apacket) (D : Daemon) : ℕ :=
  if p.msg.command = aSync then if D.config.host then 2 else 1
  else if p.msg.command = aOpen ∨ p.msg.command = aWrte then 2
  else if p.msg.command ∈ [aCnxn, aAuth, aOkay, aClse] then 1
  else 0

lemma answers_le (p : Apacket) (D : Daemon) : D.answers p ≤ 2 := by
  rw [answers]
  split
  · split <;> omega
  · split
    · exact le_refl _
    · split <;> omega

/-- `handle_packet` takes the packet it is given, and sends its answers. -/
theorem handlePacket_balanced (hD : D.Sane) (hrec : Recorded t D) (hl : Listed D) :
    Balanced (D.kept p t) (D.answers p) (fun D' => D') D (D.handlePacket p t) fun _ => True := by
  have hnote : Books 0 0 D (D.emit (.received t p)) := .quiet hD rfl
  have hput : ∀ {c : ℕ} {x : Except Stop Daemon} (hc : c ≤ D.answers p),
      Balanced 0 c (fun D' => D') (D.emit (.received t p)) x (fun _ => True) →
      Balanced (Pi.single p.addr 1) (D.answers p) (fun D' => D') (D.emit (.received t p))
        (x >>= fun D' => .ok (D'.putApacket p)) fun _ => True := by
    intro c x hc hx
    exact hx.bind (Pi.single p.addr 1) 0
      (fun D₁ h₁ _ => .ok (.putApacket h₁.sane p) trivial) (zero_add _) hc
  have hone : p.msg.command ∈ [aCnxn, aAuth, aOkay, aClse] → 1 ≤ D.answers p := by
    intro h
    have hsync : p.msg.command ≠ aSync := by
      intro hc
      rw [hc] at h
      exact absurd h (by decide)
    have hother : ¬(p.msg.command = aOpen ∨ p.msg.command = aWrte) := by
      rintro (hc | hc)
      all_goals
        rw [hc] at h
        exact absurd h (by decide)
    rw [answers, if_neg hsync, if_neg hother, if_pos h]
  have hkept : p.msg.command ≠ aWrte → D.kept p t = Pi.single p.addr 1 :=
    fun h => kept_of_not (by simp [forgets, h])
  refine .next hnote ?_
  rw [handlePacket]
  split
  case isTrue h =>
    rw [hkept (by rw [h]; decide), answers, if_pos h]
    exact handleSync_balanced hnote.sane hrec
  split
  case isTrue h =>
    rw [hkept (by rw [h]; decide)]
    exact hput (hone (by rw [h]; decide)) (handleCnxn_balanced hnote.sane hrec)
  split
  case isTrue h =>
    rw [hkept (by rw [h]; decide)]
    exact hput (hone (by rw [h]; decide)) (handleAuth_balanced hnote.sane)
  split
  case isTrue h =>
    rw [hkept (by rw [h]; decide)]
    refine hput ?_ (handleOpen_balanced hnote.sane)
    rw [answers, if_neg (by rw [h]; decide), if_pos (.inl h)]
  split
  case isTrue h =>
    rw [hkept (by rw [h]; decide)]
    exact hput (hone (by rw [h]; decide)) (handleOkay_balanced hnote.sane hl)
  split
  case isTrue h =>
    rw [hkept (by rw [h]; decide)]
    exact hput (hone (by rw [h]; decide)) (handleClse_balanced hnote.sane)
  split
  case isTrue h =>
    rw [answers, if_neg (by rw [h]; decide), if_pos (.inr h)]
    exact handleWrte_balanced hnote.sane h
  case isFalse h =>
    rw [hkept h]
    exact .ok ((Books.putApacket hnote.sane p).mono rfl (Nat.zero_le _)) trivial

end Daemon

end Adbd
