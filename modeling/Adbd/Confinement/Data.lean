import Adbd.Confinement.Close

/-!
# Confinement: data through sockets

`enqueue` and `ready` stay within every set that the socket is in.

Each of them works on the socket it is called for, and may close it: then the close goes on to the
peer, which is in the set as well.  `remote_socket_enqueue` changes no socket at all, it sends an
`A_WRTE` and notes that it belongs to the socket.  A smart socket that has read its request hands
its peer over to a transport; what `connect_to_remote` then makes of the two is within the set,
since the peer is.
-/

namespace Adbd

open Function Transition Footprint FlagWord

namespace Daemon

variable {A : Set Addr} {D D' : Daemon} {a r p : Addr} {s : Asocket} {t : TAddr} {n : ℕ}

/-! ## `enqueue` -/

lemma linkPacket_stays (h : Contained A D) (ha : a ∈ A) (pkt : Apacket) :
    Stays A Prod.snd D (D.linkPacket a pkt) := by
  rw [linkPacket]
  refine .deref fun s hs => ?_
  have hset := Within.assign (q := { s with pkts := s.pkts ++ [pkt] }) h ha hs rfl
  refine .after hset ((fdeventAdd_stays hset.contained (inner_socket ha) _).seq fun D₁ _ h₁ => ?_)
  exact .ok (.refl h₁.contained)

lemma localSocketEnqueue_stays (h : Contained A D) (ha : a ∈ A) (pkt : Apacket) :
    Stays A Prod.snd D (D.localSocketEnqueue a pkt) := by
  have hnote : ∀ {D : Daemon}, Contained A D → ∀ {o : Obs},
      (∀ b, o.Concerns b → a = b) → Within A D (D.emit o) := by
    intro D h o ho
    exact .emit h fun b hb hob => hb (ho b hob ▸ ha)
  rw [localSocketEnqueue]
  refine .deref fun s _ => ?_
  dsimp only
  split
  · have hemit : ∀ bs, Within A D (D.emit (.enqueued a bs [])) := fun bs =>
      hnote h fun b hab => hab
    exact .after (hemit _) (linkPacket_stays (hemit _).contained ha _)
  · rcases writeLoop _ D.io.writes with ⟨out, e, ws⟩
    have hio : Within A D { D with io := { D.io with writes := ws } } :=
      .aside h rfl rfl rfl rfl rfl
    have hemit : Within A D ({ D with io := { D.io with writes := ws } }.emit
        (.enqueued a ({ pkt with ptr := 0 } : Apacket).remaining out)) :=
      hio.trans (hnote hio.contained fun b hab => hab)
    refine .after hemit ?_
    cases e with
    | done => exact .ok (.emit hemit.contained fun _ _ hno => hno)
    | again => exact linkPacket_stays hemit.contained ha _
    | failed =>
      have hfail := hnote hemit.contained (o := .writeFailed a) fun b hab => hab
      refine .after hfail ((close_stays hfail.contained ha).seq fun D₁ _ h₁ => ?_)
      exact .ok (.refl h₁.contained)

lemma remoteSocketEnqueue_stays (h : Contained A D) (ha : a ∈ A) (pkt : Apacket) :
    Stays A Prod.snd D (D.remoteSocketEnqueue a pkt) := by
  rw [remoteSocketEnqueue]
  refine .deref fun s hs => .peerOf (h.peer ha hs) fun p _ => .deref fun q _ => ?_
  refine (sendPacket_stays h (fun r hr => ?_) _ _).seq fun D₁ _ h₁ => .ok (.refl h₁.contained)
  rwa [← Option.some.inj hr]

lemma jdwpSocketEnqueue_stays (h : Contained A D) (ha : a ∈ A) (pkt : Apacket) :
    Stays A Prod.snd D (D.jdwpSocketEnqueue a pkt) := by
  rw [jdwpSocketEnqueue]
  have hput := putApacket_within h pkt
  refine .after hput (.deref fun s hs => .peerOf (hput.contained.peer ha hs) fun p hp => ?_)
  exact (close_stays hput.contained hp).seq fun D₁ _ h₁ => .ok (.refl h₁.contained)

lemma smartSocketFail_stays (h : Contained A D) (ha : a ∈ A) :
    Stays A Prod.snd D (D.smartSocketFail a) := by
  rw [smartSocketFail]
  exact (close_stays h ha).seq fun D₁ _ h₁ => .ok (.refl h₁.contained)

lemma connectToRemote_stays (h : Contained A D) (a : Addr) (destination : List UInt8) :
    Stays A (fun D => D) D (D.connectToRemote a destination) := by
  rw [connectToRemote]
  refine .deref fun s _ => ?_
  have hget := getApacket_within h
  refine .after hget ?_
  dsimp only
  split
  · trivial
  · exact sendPacket_stays hget.contained (by rintro r ⟨⟩) _ _

lemma smartSocketHandOver_stays (h : Contained A D) (hr : r ∈ A) (ha : a ∈ A) (t : TAddr)
    (destination : List UInt8) :
    Stays A Prod.snd D (D.smartSocketHandOver r a t destination) := by
  rw [smartSocketHandOver]
  refine .deref fun q _ => ?_
  have hset := Within.setSocket (s := { q with
    ops := .fdNotify
    peer := none
    transport := some t }) h ha (peerless A)
  refine .after hset ((connectToRemote_stays hset.contained a destination).seq fun D₁ _ h₁ => ?_)
  refine .deref fun s _ => ?_
  have hclear := clearPeer_within h₁.contained hr s
  refine .after hclear ((close_stays hclear.contained hr).seq fun D₂ _ h₂ => ?_)
  exact .ok (.refl h₂.contained)

lemma smartSocketEnqueue_stays (h : Contained A D) (ha : a ∈ A) (pkt : Apacket) :
    Stays A Prod.snd D (D.smartSocketEnqueue a pkt) := by
  rw [smartSocketEnqueue]
  refine .deref fun s hs => ?_
  have hput : Within A D (if s.pkts = [] then D else D.putApacket pkt) := by
    split
    · exact .refl h
    · exact putApacket_within h pkt
  refine .after hput ?_
  generalize (if s.pkts = [] then D else D.putApacket pkt) = D₁ at hput ⊢
  cases gather s pkt with
  | none => exact smartSocketFail_stays hput.contained ha
  | some first =>
    have hset := Within.setSocket (s := { s with pkts := [first] }) hput.contained ha
      fun p hp => h.peer ha hs p hp
    refine .after hset ?_
    dsimp only
    split
    · exact .ok (.refl hset.contained)
    · cases unhex (first.data.take 4) with
      | none => exact smartSocketFail_stays hset.contained ha
      | some len =>
        dsimp only
        split
        · exact smartSocketFail_stays hset.contained ha
        split
        · exact .ok (.refl hset.contained)
        · refine .peerOf (h.peer ha hs) fun q hq => ?_
          cases Daemon.acquireOneTransport .any (D₁.setSocket a { s with pkts := [first] }) with
          | error err =>
            have hsend := sendfailmsg_within hset.contained hq err
            exact .after hsend (smartSocketFail_stays hsend.contained ha)
          | ok t => exact smartSocketHandOver_stays hset.contained ha hq t _

/-- `s->enqueue(s,p)`. -/
lemma enqueue_stays (h : Contained A D) (ha : a ∈ A) (pkt : Apacket) :
    Stays A Prod.snd D (D.enqueue a pkt) := by
  rw [enqueue]
  refine .deref fun s _ => ?_
  cases s.ops with
  | fd => exact localSocketEnqueue_stays h ha pkt
  | fdNotify => exact localSocketEnqueue_stays h ha pkt
  | remote => exact remoteSocketEnqueue_stays h ha pkt
  | smart => exact smartSocketEnqueue_stays h ha pkt
  | jdwp => exact jdwpSocketEnqueue_stays h ha pkt
  | tracker => exact jdwpSocketEnqueue_stays h ha pkt

/-! ## `ready` -/

lemma localSocketReady_stays (h : Contained A D) (ha : a ∈ A) :
    Stays A (fun D => D) D (D.localSocketReady a) :=
  fdeventAdd_stays h (inner_socket ha) _

lemma localSocketReadyNotify_stays (h : Contained A D) (ha : a ∈ A) :
    Stays A (fun D => D) D (D.localSocketReadyNotify a) := by
  rw [localSocketReadyNotify]
  refine .deref fun s hs => ?_
  have hset := Within.assign (q := { s with ops := .fd }) h ha hs rfl
  generalize D.setSocket a { s with ops := .fd } = D₁ at hset ⊢
  have htold : ∀ ws bs, Within A D₁
      ({ D₁ with io := { D₁.io with writes := ws } }.emit (.told a bs)) := by
    intro ws bs
    have hio : Within A D₁ { D₁ with io := { D₁.io with writes := ws } } :=
      .aside hset.contained rfl rfl rfl rfl rfl
    exact hio.trans (.emit hio.contained fun b hb hab => hb (hab ▸ ha))
  exact .after (hset.trans (htold _ _)) (localSocketReady_stays (htold _ _).contained ha)

lemma remoteSocketReady_stays (h : Contained A D) (ha : a ∈ A) :
    Stays A (fun D => D) D (D.remoteSocketReady a) := by
  rw [remoteSocketReady]
  refine .deref fun s hs => .peerOf (h.peer ha hs) fun p _ => .deref fun q _ => ?_
  refine sendMsg_stays h (fun r hr => ?_) _ _ _
  rwa [← Option.some.inj hr]

lemma jdwpSocketReady_stays (h : Contained A D) (ha : a ∈ A) :
    Stays A (fun D => D) D (D.jdwpSocketReady a) := by
  rw [jdwpSocketReady]
  refine .deref fun s hs => .peerOf (h.peer ha hs) fun p hp => ?_
  split
  · have hget := getApacket_within h
    refine .after hget ((enqueue_stays hget.contained hp _).seq fun y _ h₁ => ?_)
    refine .deref fun s₁ hs₁ => .ok (.setSocket h₁.contained ha fun q hq => ?_)
    exact h₁.contained.sealed.follow ha hs₁ hq
  · exact close_stays h hp

lemma jdwpTrackerReady_stays (h : Contained A D) (ha : a ∈ A) :
    Stays A (fun D => D) D (D.jdwpTrackerReady a) := by
  rw [jdwpTrackerReady]
  refine .deref fun s hs => ?_
  split
  · exact .ok (.refl h)
  · have hget := getApacket_within h
    have hset := hget.trans
      (.assign (q := { s with needUpdate := false }) hget.contained ha hs rfl)
    refine .after hset (.peerOf (h.peer ha hs) fun p hp => ?_)
    exact (enqueue_stays hset.contained hp _).seq fun y _ h₁ => .ok (.refl h₁.contained)

/-- `s->ready(s)`. -/
lemma ready_stays (h : Contained A D) (ha : a ∈ A) :
    Stays A (fun D => D) D (D.ready a) := by
  rw [ready]
  refine .deref fun s _ => ?_
  cases s.ops with
  | fd => exact localSocketReady_stays h ha
  | fdNotify => exact localSocketReadyNotify_stays h ha
  | remote => exact remoteSocketReady_stays h ha
  | smart => exact .ok (.refl h)
  | jdwp => exact jdwpSocketReady_stays h ha
  | tracker => exact jdwpTrackerReady_stays h ha

end Daemon

end Adbd
