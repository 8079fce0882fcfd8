import Adbd.Confinement.Events

/-!
# Confinement: packets of a transport

`handle_packet` works on the socket the packet names by its local id, on the streams of the
transport when a session ends, and on what it makes.

`Addressed` is what has to be in the set for that: the socket that `find_local_socket` returns for
an `A_OKAY`, `A_CLSE` or `A_WRTE` on an online transport, and, if the packet ends the session,
everything linked with the transport.  `A_OPEN` and the listener only make sockets.  `A_AUTH`, and
an `A_CNXN` that does not end a session, change the transport and send packets that belong to no
socket, and `adb_auth_event` does nothing else either.
-/

namespace Adbd

open Function Transition Footprint FlagWord

namespace Daemon

variable {A : Set Addr} {D D' : Daemon} {a r : Addr} {s : Asocket} {t : TAddr} {x : Atransport}
  {p : Apacket} {n : ℕ}

/-! ## Services -/

lemma setProcess_within (h : Contained A D) (proc : JdwpProcess) :
    Within A D (D.setProcess proc) :=
  .aside h rfl rfl rfl rfl rfl

lemma createJdwpConnectionFd_stays (h : Contained A D) (pid : Int) :
    Stays A Prod.snd D (D.createJdwpConnectionFd pid) := by
  rw [createJdwpConnectionFd]
  split
  · exact .ok (.refl h)
  case h_2 proc _ =>
    split
    · exact .ok (.refl h)
    · refine (takeFd_stays h _).seq fun y _ h₁ => (takeFd_stays h₁.contained _).seq fun z _ h₂ => ?_
      obtain ⟨near, D₁⟩ := y
      obtain ⟨far, D₂⟩ := z
      dsimp only at h₁ h₂ ⊢
      cases near with
      | none => trivial
      | some n =>
        cases far with
        | none => trivial
        | some m =>
          have hset := setProcess_within h₂.contained (proc.enqueue m)
          have hadd : Stays A (fun D => D) (D₂.setProcess (proc.enqueue m))
              (if proc.outCount = 0 then
                (D₂.setProcess (proc.enqueue m)).onLoop
                  (Loop.fdeventAdd (.jdwpProcess proc.addr) fdeWrite)
              else pure (D₂.setProcess (proc.enqueue m))) := by
            split
            · exact fdeventAdd_stays hset.contained (by rintro b - ⟨⟩) _
            · exact .ok (.refl hset.contained)
          exact .after hset (hadd.seq fun D₃ _ h₃ => .ok (.refl h₃.contained))

lemma serviceToFd_stays (h : Contained A D) (name : List UInt8) :
    Stays A Prod.snd D (D.serviceToFd name) := by
  rw [serviceToFd]
  split
  · exact .ok (.refl h)
  · exact createJdwpConnectionFd_stays h _
  · refine (takeFd_stays h _).seq fun y _ h₁ => (takeFd_stays h₁.contained _).seq fun z _ h₂ => ?_
    obtain ⟨near, D₁⟩ := y
    obtain ⟨far, D₂⟩ := z
    dsimp only at h₁ h₂ ⊢
    split
    · exact .ok (.refl h₂.contained)
    · exact .ok (.refl h₂.contained)
    · trivial
  · exact takeFd_stays h _

/-- A service that is started has a socket of `A`. -/
lemma createLocalServiceSocket_stays (h : Contained A D) (name : List UInt8) :
    Ensures (D.createLocalServiceSocket name) fun y =>
      Within A D y.2 ∧ ∀ a, y.1 = some a → a ∈ A := by
  have hsome : ∀ {a b : Addr}, a ∈ A → some a = some b → b ∈ A := by
    rintro a b ha ⟨⟩
    exact ha
  rw [createLocalServiceSocket]
  split
  · refine Outcome.bind (createJdwpServiceSocket_makes h) fun y _ hy => ?_
    exact ⟨hy.1, fun b => hsome hy.2⟩
  split
  · refine Outcome.bind (createJdwpTrackerServiceSocket_makes h) fun y _ hy => ?_
    exact ⟨hy.1, fun b => hsome hy.2⟩
  refine Outcome.bind (serviceToFd_stays h name) fun y _ h₁ => ?_
  obtain ⟨fd, D₁⟩ := y
  dsimp only at h₁ ⊢
  cases fd with
  | none => exact ⟨h₁, fun a ha => by cases ha⟩
  | some n =>
    refine Outcome.bind (createLocalSocket_makes h₁.contained n) fun y _ hy => ?_
    obtain ⟨a, D₂⟩ := y
    obtain ⟨h₂, ha⟩ := hy
    dsimp only at h₂ ha ⊢
    cases hs : D₂.sockets a with
    | none =>
      rw [deref, hs]
      trivial
    | some s =>
      rw [deref_bind hs]
      split
      · have hexit := Within.assign (q := { s with exitOnClose := true }) h₂.contained ha hs rfl
        exact ⟨(h₁.trans h₂).trans hexit, fun b => hsome ha⟩
      · exact ⟨h₁.trans h₂, fun b => hsome ha⟩

lemma ssListenerEventFunc_stays (h : Contained A D) (ev : BitVec 16) :
    Stays A (fun D => D) D (D.ssListenerEventFunc ev) := by
  rw [ssListenerEventFunc]
  split
  · refine (takeFd_stays h _).seq fun y _ h₁ => ?_
    obtain ⟨fd, D₁⟩ := y
    dsimp only at h₁ ⊢
    cases fd with
    | none => exact .ok (.refl h₁.contained)
    | some n =>
      exact (createLocalSocket_makes h₁.contained n).seq fun a D₂ h₂ ha =>
        connectToSmartsocket_stays h₂.contained ha
  · exact .ok (.refl h)

/-! ## The state of a connection -/

lemma handleOnline_stays (h : Contained A D) (t : TAddr) :
    Stays A (fun D => D) D (D.handleOnline t) :=
  modifyT_stays h fun _ => rfl

lemma handleOffline_stays (h : Contained A D) (hl : LinkedWithin A t D) :
    Stays A (fun D => D) D (D.handleOffline t) := by
  rw [handleOffline]
  exact (modifyT_stays (f := fun x => { x with online := false }) h fun _ => rfl).seq
    fun D₁ _ h₁ => runTransportDisconnects_stays h₁.contained (h₁.linkedWithin hl)

/-- A message of the daemon itself. -/
lemma sendOwn_stays (h : Contained A D) (msg : Amessage) (data : List UInt8) (t : TAddr) :
    Stays A (fun D => D) D (D.sendMsg none msg data (some t)) :=
  sendMsg_stays h (by rintro r ⟨⟩) msg data (some t)

lemma sendConnect_stays (h : Contained A D) (t : TAddr) :
    Stays A (fun D => D) D (D.sendConnect t) := by
  rw [sendConnect]
  split
  · trivial
  · exact sendOwn_stays h _ _ t

lemma sendAuthRequest_stays (h : Contained A D) (t : TAddr) :
    Stays A (fun D => D) D (D.sendAuthRequest t) := by
  rw [sendAuthRequest]
  cases D.io.token with
  | none => exact .ok (.refl h)
  | some token =>
    dsimp only
    split
    · exact (modifyT_stays (f := fun x => { x with token := token }) h fun _ => rfl).seq
        fun D₁ _ h₁ => sendOwn_stays h₁.contained _ _ t
    · exact .ok (.refl h)

lemma adbAuthVerified_stays (h : Contained A D) (t : TAddr) :
    Stays A (fun D => D) D (D.adbAuthVerified t) := by
  rw [adbAuthVerified]
  have hemit : Within A D (D.emit (.verified t)) := .emit h fun _ _ hno => hno
  exact .after hemit ((handleOnline_stays hemit.contained t).seq fun D₁ _ h₁ =>
    sendConnect_stays h₁.contained t)

lemma adbAuthConfirmKey_stays (h : Contained A D) (p : Apacket) (t : TAddr) :
    Stays A (fun D => D) D (D.adbAuthConfirmKey p t) := by
  rw [adbAuthConfirmKey]
  split
  · exact .ok (.refl h)
  split
  · exact .ok (.refl h)
  rw [cstr]
  split
  case isFalse => trivial
  case isTrue =>
    show Stays A (fun D => D) D (if maxPayload ≤ _ then pure D else _)
    split
    · exact .ok (.refl h)
    split
    · exact .ok (.aside h rfl rfl rfl rfl rfl)
    case h_2 out ws _ =>
      have hwrites : Within A D (D.setWrites ws) := .aside h rfl rfl rfl rfl rfl
      have hemit := hwrites.trans (.emit (o := .confirm t) hwrites.contained fun _ _ hno => hno)
      have hkey : Inner A (.auth t) := by rintro b - ⟨⟩
      refine .after hemit ((fdeventInstall_stays hemit.contained hkey _).seq fun D₁ _ h₁ => ?_)
      exact fdeventAdd_stays h₁.contained hkey _

/-- `adb_auth_event`. -/
lemma adbAuthEvent_stays (h : Contained A D) (ev : BitVec 16) (t : TAddr) :
    Stays A (fun D => D) D (D.adbAuthEvent ev t) := by
  have hreads : ∀ rs, Within A D (D.setReads rs) := fun rs => .aside h rfl rfl rfl rfl rfl
  rw [adbAuthEvent]
  split
  case isFalse => exact .ok (.refl h)
  case isTrue =>
    split
    case h_1 rs _ =>
      refine .after (hreads rs) (.derefT fun x _ => ?_)
      refine (fdeventRemove_stays (hreads rs).contained (by rintro b - ⟨⟩)).seq fun D₁ _ h₁ => ?_
      have hemit := Within.emit (o := .authDropped t) h₁.contained fun _ _ hno => hno
      exact .ok (hemit.trans (.aside hemit.contained rfl rfl rfl rfl rfl))
    case h_2 response rs _ =>
      refine .after (hreads rs) ?_
      dsimp only
      split
      · exact adbAuthVerified_stays (hreads rs).contained t
      · exact .ok (.refl (hreads rs).contained)

lemma adbAuthListener_stays (h : Contained A D) :
    Stays A (fun D => D) D D.adbAuthListener := by
  rw [adbAuthListener]
  refine (takeFd_stays h _).seq fun y _ h₁ => ?_
  obtain ⟨fd, D₁⟩ := y
  dsimp only at h₁ ⊢
  cases fd with
  | none => exact .ok (.refl h₁.contained)
  | some n =>
    have hemit := Within.emit (o := .frameworkConnected) h₁.contained fun _ _ hno => hno
    exact .ok (hemit.trans (.aside hemit.contained rfl rfl rfl rfl rfl))

/-! ## `handle_packet` -/

/-- The packet ends the session of the transport, and with it the streams there are. -/
def EndsSession (p : Apacket) (x : Atransport) : Prop :=
  p.msg.command = aCnxn ∧ x.connectionState ≠ .offline ∨ p.msg.command = aSync ∧ p.msg.arg0 = 0

/-- What packet `p` of transport `t` is for lies in `A`: the socket it names, or the streams of
the session it ends. -/
structure Addressed (A : Set Addr) (t : TAddr) (p : Apacket) (D : Daemon) : Prop where
  named : ∀ x a, D.transports t = some x → x.online = true →
    p.msg.command ∈ [aOkay, aClse, aWrte] → D.findLocalSocket p.msg.arg1 = some a → a ∈ A
  linked : ∀ x, D.transports t = some x → EndsSession p x → ∀ r ∈ x.disconnects, r ∈ A

/-- `case A_SYNC`. -/
lemma handleSync_stays (h : Contained A D) (hl : p.msg.arg0 = 0 → LinkedWithin A t D) :
    Stays A (fun D => D) D (D.handleSync p t) := by
  have hown : ∀ {D : Daemon}, Contained A D →
      Stays A (fun D => D) D (D.sendPacket none p (some t)) := fun h =>
    sendPacket_stays h (by rintro r ⟨⟩) p (some t)
  rw [handleSync]
  split
  · refine (hown h).seq fun D₁ _ h₁ => ?_
    split
    · exact sendConnect_stays h₁.contained t
    · exact .ok (.refl h₁.contained)
  · rename_i harg
    refine (modifyT_stays (f := fun x => { x with connectionState := .offline }) h
      fun _ => rfl).seq fun D₁ _ h₁ => ?_
    refine (handleOffline_stays h₁.contained (h₁.linkedWithin (hl (not_not.mp harg)))).seq
      fun D₂ _ h₂ => ?_
    exact hown h₂.contained

lemma parseBanner_disconnects (text : List UInt8) (x : Atransport) :
    (parseBanner text x).disconnects = x.disconnects := by
  obtain ⟨st, a, b, c, heq⟩ := parseBanner_eq text x
  rw [heq]

/-- `case A_CNXN`. -/
lemma handleCnxn_stays (h : Contained A D) (hl : ∀ x, D.transports t = some x →
    x.connectionState ≠ .offline → ∀ r ∈ x.disconnects, r ∈ A) :
    Stays A (fun D => D) D (D.handleCnxn p t) := by
  rw [handleCnxn]
  refine .derefT fun x hx => ?_
  have hreset : Stays A (fun D => D) D (if x.connectionState ≠ .offline then do
      let D ← D.modifyT t fun x => { x with connectionState := .offline }
      D.handleOffline t
    else pure D) := by
    split
    case isFalse => exact .ok (.refl h)
    case isTrue hup =>
      refine (modifyT_stays (f := fun x => { x with connectionState := .offline }) h
        fun _ => rfl).seq fun D₁ _ h₁ => ?_
      refine handleOffline_stays h₁.contained (h₁.linkedWithin fun y hy r hr => ?_)
      exact hl y hy (by rwa [Option.some.inj (hy.symm.trans hx)]) r hr
  refine hreset.seq fun D₁ _ h₁ => ?_
  cases cstr p.data with
  | error e => trivial
  | ok banner =>
    refine (modifyT_stays h₁.contained (parseBanner_disconnects banner)).seq fun D₂ _ h₂ => ?_
    split
    · refine (handleOnline_stays h₂.contained t).seq fun D₃ _ h₃ => ?_
      split
      · exact .ok (.refl h₃.contained)
      · exact sendConnect_stays h₃.contained t
    · exact sendAuthRequest_stays h₂.contained t

/-- `case A_AUTH`. -/
lemma handleAuth_stays (h : Contained A D) (p : Apacket) (t : TAddr) :
    Stays A (fun D => D) D (D.handleAuth p t) := by
  rw [handleAuth]
  split
  · have hget := getApacket_within h
    exact .ok (hget.trans (putApacket_within hget.contained _))
  split
  · refine .derefT fun x _ => ?_
    split
    · exact (adbAuthVerified_stays h t).seq fun D₁ _ h₁ =>
        modifyT_stays h₁.contained fun _ => rfl
    · exact (modifyT_stays (f := fun x =>
        { x with failedAuthAttempts := x.failedAuthAttempts + 1 }) h fun _ => rfl).seq
          fun D₁ _ h₁ => sendAuthRequest_stays h₁.contained t
  split
  · exact adbAuthConfirmKey_stays h p t
  · exact .ok (.refl h)

/-- `case A_OPEN`. -/
lemma handleOpen_stays (h : Contained A D) (p : Apacket) (t : TAddr) :
    Stays A (fun D => D) D (D.handleOpen p t) := by
  rw [handleOpen]
  refine .derefT fun x _ => ?_
  split
  · exact .ok (.refl h)
  refine Outcome.bind (createLocalServiceSocket_stays h _) fun y _ hy => ?_
  obtain ⟨s, D₁⟩ := y
  obtain ⟨h₁, hs⟩ := hy
  dsimp only at h₁ hs ⊢
  refine Stays.after h₁ ?_
  cases s with
  | none =>
    have hemit := Within.emit (o := .refused t p.msg.arg0) h₁.contained fun _ _ hno => hno
    exact .after hemit (sendOwn_stays hemit.contained _ _ t)
  | some a =>
    have ha : a ∈ A := hs a rfl
    refine (pairRemote_makes h₁.contained ha _ t).seq fun r D₂ h₂ hr => ?_
    have hemit := Within.emit (o := .opened r a) h₂.contained (by
      rintro b hb (rfl | rfl)
      · exact hb hr
      · exact hb ha)
    refine .after hemit (.deref fun s _ => .deref fun q _ => ?_)
    refine (sendMsg_stays hemit.contained ?_ _ _ (some t)).seq fun D₃ _ h₃ => ?_
    · rintro r' ⟨⟩
      exact hr
    · exact ready_stays h₃.contained ha

/-- `case A_OKAY`. -/
lemma handleOkay_stays (h : Contained A D) (ha : ∀ x a, D.transports t = some x →
    x.online = true → D.findLocalSocket p.msg.arg1 = some a → a ∈ A) :
    Stays A (fun D => D) D (D.handleOkay p t) := by
  rw [handleOkay]
  refine .derefT fun x hx => ?_
  split
  · exact .ok (.refl h)
  case isFalse honline =>
    split
    · exact .ok (.refl h)
    case h_2 a hfind =>
      have hmem : a ∈ A := ha x a hx (Bool.eq_true_of_not_eq_false honline) hfind
      refine .deref fun s _ => ?_
      refine Stays.seq (g := fun D => D) ?_ fun D₁ _ h₁ => ready_stays h₁.contained hmem
      split
      · exact (pairRemote_makes h hmem _ t).seq fun r D₁ h₁ _ => .ok (.refl h₁.contained)
      · exact .ok (.refl h)

/-- `case A_CLSE`. -/
lemma handleClse_stays (h : Contained A D) (ha : ∀ x a, D.transports t = some x →
    x.online = true → D.findLocalSocket p.msg.arg1 = some a → a ∈ A) :
    Stays A (fun D => D) D (D.handleClse p t) := by
  rw [handleClse]
  refine .derefT fun x hx => ?_
  split
  · exact .ok (.refl h)
  case isFalse honline =>
    split
    · exact .ok (.refl h)
    case h_2 a hfind =>
      exact close_stays h (ha x a hx (Bool.eq_true_of_not_eq_false honline) hfind)

/-- `case A_WRTE`. -/
lemma handleWrte_stays (h : Contained A D) (ha : ∀ x a, D.transports t = some x →
    x.online = true → D.findLocalSocket p.msg.arg1 = some a → a ∈ A) :
    Stays A Prod.snd D (D.handleWrte p t) := by
  rw [handleWrte]
  refine .derefT fun x hx => ?_
  split
  · exact .ok (.refl h)
  case isFalse honline =>
    split
    · exact .ok (.refl h)
    case h_2 a hfind =>
      have hmem : a ∈ A := ha x a hx (Bool.eq_true_of_not_eq_false honline) hfind
      refine .deref fun s hs => ?_
      refine (enqueue_stays h hmem _).seq fun y _ h₁ => ?_
      obtain ⟨r, D₁⟩ := y
      dsimp only at h₁ ⊢
      have hready : Stays A (fun D => D) D₁ (if r = 0 then
          D₁.sendReady (D.remoteOf s) s.id p.msg.arg0 t else pure D₁) := by
        split
        · refine sendMsg_stays h₁.contained (fun q hq => ?_) _ _ (some t)
          exact h.peer hmem hs q ((Option.filter_eq_some_iff ..).mp hq).1
        · exact .ok (.refl h₁.contained)
      exact hready.seq fun D₂ _ h₂ => .ok (.refl h₂.contained)

/-- `handle_packet`. -/
lemma handlePacket_stays (h : Contained A D) (haddr : Addressed A t p D) :
    Stays A (fun D => D) D (D.handlePacket p t) := by
  rw [handlePacket]
  have hemit := Within.emit (o := .received t p) h fun _ _ hno => hno
  refine .after hemit ?_
  have hnamed : p.msg.command ∈ [aOkay, aClse, aWrte] → ∀ x a,
      (D.emit (.received t p)).transports t = some x → x.online = true →
      (D.emit (.received t p)).findLocalSocket p.msg.arg1 = some a → a ∈ A :=
    fun hcommand x a hx honline hfind => haddr.named x a hx honline hcommand hfind
  -- the packet is freed afterwards
  have hfree : ∀ {z : Except Stop Daemon},
      Stays A (fun D => D) (D.emit (.received t p)) z →
      Stays A (fun D => D) (D.emit (.received t p)) (do
        let D ← z
        pure (D.putApacket p)) := fun hz =>
    hz.seq fun D₁ _ h₁ => .ok (putApacket_within h₁.contained p)
  split
  case isTrue hcommand =>
    exact handleSync_stays hemit.contained fun harg x hx =>
      haddr.linked x hx (.inr ⟨hcommand, harg⟩)
  split
  case isTrue hcommand =>
    exact hfree (handleCnxn_stays hemit.contained fun x hx hup =>
      haddr.linked x hx (.inl ⟨hcommand, hup⟩))
  split
  · exact hfree (handleAuth_stays hemit.contained p t)
  split
  · exact hfree (handleOpen_stays hemit.contained p t)
  split
  case isTrue hcommand =>
    exact hfree (handleOkay_stays hemit.contained (hnamed (by simp [hcommand])))
  split
  case isTrue hcommand =>
    exact hfree (handleClse_stays hemit.contained (hnamed (by simp [hcommand])))
  split
  case isTrue hcommand =>
    refine (handleWrte_stays hemit.contained (hnamed (by simp [hcommand]))).seq fun y _ h₁ => ?_
    obtain ⟨mine, D₁⟩ := y
    dsimp only at h₁ ⊢
    split
    · exact .ok (putApacket_within h₁.contained p)
    · exact .ok (.refl h₁.contained)
  · exact .ok (putApacket_within hemit.contained p)

end Daemon

end Adbd
