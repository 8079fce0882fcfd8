import Adbd.Confinement.Data

/-!
# Confinement: new sockets, and events of a descriptor

A socket that is made is in the set, and so is the one it is paired with.

`Makes` is `Stays` for a function that returns a new socket: besides leaving everything outside
alone it returns an address of the set.  `create_local_socket`, the two JDWP services and
`create_remote_socket` satisfy it for every set that contains the addresses to come.
`pairRemote_makes` and `connectToSmartsocket_stays` pair the new socket with one that is in the
set already, so the link stays inside.

The event function of a socket with a descriptor has two halves, and both stay within the set.
The writing one drains the queue of the socket; when it is empty it asks the peer for more, and
when a write fails it closes the socket and with it the peer.  The reading one fills a packet and
hands it to the peer, which may close both.  Neither looks further than the peer, and the peer of
a socket in the set is in the set.
-/

namespace Adbd

open Function Transition Footprint FlagWord

namespace Daemon

variable {A : Set Addr} {D D' : Daemon} {a r p : Addr} {s : Asocket} {t : TAddr} {n : ℕ}

/-! ## New sockets -/

/-- The function makes a socket of `A`, and changes nothing outside. -/
def Makes (A : Set Addr) (D : Daemon) (z : Except Stop (Addr × Daemon)) : Prop :=
  Ensures z fun y => Within A D y.2 ∧ y.1 ∈ A

lemma Makes.seq {γ : Type} {k : γ → Daemon} {z : Except Stop (Addr × Daemon)} (hz : Makes A D z)
    {f : Addr × Daemon → Except Stop γ}
    (hf : ∀ b D', Within A D D' → b ∈ A → Stays A k D' (f (b, D'))) : Stays A k D (z >>= f) :=
  Outcome.bind hz fun y _ hy => (hf y.1 y.2 hy.1 hy.2).mono fun _ h => hy.1.trans h

lemma installLocalSocket_stays (h : Contained A D) (ha : a ∈ A) :
    Stays A (fun D => D) D (D.installLocalSocket a) := by
  rw [installLocalSocket]
  refine .deref fun s hs => ?_
  have hset := Within.assign (q := { s with id := D.localSocketNextId }) h ha hs rfl
  exact .ok (hset.trans (.aside hset.contained rfl rfl rfl rfl rfl))

lemma createLocalSocket_makes (h : Contained A D) (n : ℕ) : Makes A D (D.createLocalSocket n) := by
  have hcalloc := Within.callocSocket (s := { ops := .fd, fd := n }) h (peerless A)
  have hnew : D.nextAddr ∈ A := h.fresh _ (le_refl _)
  refine Outcome.bind (installLocalSocket_stays hcalloc.contained hnew) fun D₁ _ h₁ => ?_
  refine Outcome.bind (fdeventInstall_stays h₁.contained (inner_socket hnew) n) fun D₂ _ h₂ => ?_
  exact ⟨(hcalloc.trans h₁).trans h₂, hnew⟩

lemma createJdwpServiceSocket_makes (h : Contained A D) :
    Makes A D D.createJdwpServiceSocket := by
  have hcalloc := Within.callocSocket (s := { ops := .jdwp }) h (peerless A)
  have hnew : D.nextAddr ∈ A := h.fresh _ (le_refl _)
  refine Outcome.bind (installLocalSocket_stays hcalloc.contained hnew) fun D₁ _ h₁ => ?_
  exact ⟨hcalloc.trans h₁, hnew⟩

lemma createJdwpTrackerServiceSocket_makes (h : Contained A D) :
    Makes A D D.createJdwpTrackerServiceSocket := by
  rw [createJdwpTrackerServiceSocket]
  have htouch : Ensures (D.touchTrackers D.jdwpTrackersList.getLast?.toList) fun _ => True := by
    cases D.touchTrackers D.jdwpTrackersList.getLast?.toList <;> trivial
  refine Outcome.bind htouch fun _ _ _ => ?_
  have hcalloc := Within.callocSocket (s := { ops := .tracker, needUpdate := true }) h
    (peerless A)
  have hnew : D.nextAddr ∈ A := h.fresh _ (le_refl _)
  set D₁ := (D.callocSocket { ops := .tracker, needUpdate := true }).2
  have hlist : Within A D₁ { D₁ with jdwpTrackersList := D₁.jdwpTrackersList ++ [D.nextAddr] } :=
    .aside hcalloc.contained rfl rfl rfl rfl rfl
  refine Outcome.bind (installLocalSocket_stays hlist.contained hnew) fun D₂ _ h₂ => ?_
  exact ⟨(hcalloc.trans hlist).trans h₂, hnew⟩

lemma createRemoteSocket_makes (h : Contained A D) (id : UInt32) (t : TAddr) :
    Makes A D (D.createRemoteSocket id t) := by
  have hcalloc := Within.callocSocket (s := { ops := .remote, id := id, transport := some t }) h
    (peerless A)
  have hnew : D.nextAddr ∈ A := h.fresh _ (le_refl _)
  set D₁ := (D.callocSocket { ops := .remote, id := id, transport := some t }).2
  have hadd : Stays A (fun D => D) D₁ (D₁.addTransportDisconnect t D.nextAddr) := by
    rw [addTransportDisconnect]
    refine .derefT fun x hx => .ok (.setTransport hcalloc.contained hx fun r hr hout => ?_)
    refine (List.mem_append.mp hr).resolve_right fun hmem => hout ?_
    rwa [List.mem_singleton.mp hmem]
  refine Outcome.bind hadd fun D₂ _ h₂ => ?_
  exact ⟨hcalloc.trans h₂, hnew⟩

lemma pairRemote_makes (h : Contained A D) (ha : a ∈ A) (id : UInt32) (t : TAddr) :
    Makes A D (D.pairRemote a id t) := by
  rw [pairRemote]
  refine Outcome.bind (createRemoteSocket_makes h id t) fun y _ hy => ?_
  obtain ⟨r, D₁⟩ := y
  obtain ⟨h₁, hr⟩ := hy
  dsimp only at h₁ hr ⊢
  cases hs : D₁.sockets a with
  | none =>
    rw [deref, hs]
    trivial
  | some s =>
    rw [deref_bind hs]
    have hset := Within.setSocket (s := { s with peer := some r }) h₁.contained ha (by
      rintro p ⟨⟩
      exact hr)
    set D₂ := D₁.setSocket a { s with peer := some r }
    cases hq : D₂.sockets r with
    | none =>
      rw [deref, hq]
      trivial
    | some q =>
      rw [deref_bind hq]
      have hback := Within.setSocket (s := { q with peer := some a }) hset.contained hr (by
        rintro p ⟨⟩
        exact ha)
      have hemit := Within.emit (o := .stream r a s.id id t) hback.contained (by
        rintro b hb (rfl | rfl)
        · exact hb hr
        · exact hb ha)
      exact ⟨((h₁.trans hset).trans hback).trans hemit, hr⟩

lemma connectToSmartsocket_stays (h : Contained A D) (ha : a ∈ A) :
    Stays A (fun D => D) D (D.connectToSmartsocket a) := by
  have hcalloc := Within.callocSocket (s := { ops := .smart, peer := some a }) h (by
    rintro p ⟨⟩
    exact ha)
  have hnew : D.nextAddr ∈ A := h.fresh _ (le_refl _)
  refine .after hcalloc (.deref fun s _ => ?_)
  have hset := Within.setSocket (s := { s with peer := some D.nextAddr }) hcalloc.contained ha (by
    rintro p ⟨⟩
    exact hnew)
  exact .after hset (ready_stays hset.contained ha)

/-! ## The event function -/

lemma localSocketWritable_stays (h : Contained A D) (ha : a ∈ A) :
    Stays A Prod.snd D (D.localSocketWritable a) := by
  rw [localSocketWritable]
  refine .deref fun s hs => ?_
  generalize drain s.pkts D.io.writes = d
  have hset := Within.assign (q := { s with pkts := d.pkts }) h ha hs rfl
  have hio : Within A D { D.setSocket a { s with pkts := d.pkts } with
      io := { D.io with writes := d.writes } } :=
    hset.trans (.aside hset.contained rfl rfl rfl rfl rfl)
  have hwrote := hio.trans (.emit (o := .wrote a d.written) hio.contained
    fun b hb hab => hb (hab ▸ ha))
  have hput := hwrote.trans (putApackets_within hwrote.contained d.freed)
  refine .after hput ?_
  dsimp only
  generalize Daemon.putApackets d.freed _ = D₁ at hput ⊢
  cases d.ended with
  | again => exact .ok (.refl hput.contained)
  | failed =>
    have hfail := Within.emit (o := .writeFailed a) hput.contained fun b hb hab => hb (hab ▸ ha)
    refine .after hfail ((close_stays hfail.contained ha).seq fun D₂ _ h₂ => ?_)
    exact .ok (.refl h₂.contained)
  | done =>
    dsimp only
    split
    · exact (close_stays hput.contained ha).seq fun D₂ _ h₂ => .ok (.refl h₂.contained)
    · refine (fdeventDel_stays hput.contained (inner_socket ha) _).seq fun D₂ _ h₂ => ?_
      refine .peerOf (h.peer ha hs) fun q hq => ?_
      exact (ready_stays h₂.contained hq).seq fun D₃ _ h₃ => .ok (.refl h₃.contained)

lemma localSocketReadable_stays (h : Contained A D) (ha : a ∈ A) :
    Stays A (fun D => D) D (D.localSocketReadable a) := by
  have hclose : ∀ {D : Daemon}, Contained A D → ∀ eof : Bool,
      Stays A (fun D => D) D (if eof then D.close a else pure D) := by
    intro D h eof
    split
    · exact close_stays h ha
    · exact .ok (.refl h)
  rw [localSocketReadable]
  dsimp only
  rcases readLoop maxPayload D.getApacket.2.io.reads with ⟨bytes, eof, rs⟩
  dsimp only
  have hio : Within A D { D.getApacket.2 with io := { D.getApacket.2.io with reads := rs } } :=
    .aside h rfl rfl rfl rfl rfl
  have hread := hio.trans (.emit (o := .read a bytes) hio.contained fun b hb hab => hb (hab ▸ ha))
  set D₁ : Daemon := { D.getApacket.2 with
    io := { D.getApacket.2.io with reads := rs } }.emit (.read a bytes)
  -- what was read is dropped: nobody wants it, or there is nothing
  have hdrop : ∀ pkt, Stays A (fun D => D) D₁
      (if eof then (D₁.putApacket pkt).close a else pure (D₁.putApacket pkt)) := by
    intro pkt
    have hput := putApacket_within hread.contained pkt
    exact .after hput (hclose hput.contained eof)
  refine .after hread (.deref fun s hs => ?_)
  cases hp : s.peer with
  | none => exact hdrop _
  | some q =>
    dsimp only
    split
    · exact hdrop _
    · have hq : q ∈ A := hread.contained.peer ha hs q hp
      refine (enqueue_stays hread.contained hq _).seq fun y _ h₁ => ?_
      obtain ⟨r, D₂⟩ := y
      dsimp only at h₁ ⊢
      split
      · exact .ok (.refl h₁.contained)
      · have hdel : Stays A (fun D => D) D₂ (if r = 0 then pure D₂
            else D₂.onLoop (Loop.fdeventDel (.socket a) fdeRead)) := by
          split
          · exact .ok (.refl h₁.contained)
          · exact fdeventDel_stays h₁.contained (inner_socket ha) _
        exact hdel.seq fun D₃ _ h₃ => hclose h₃.contained _

/-- `local_socket_event_func`. -/
lemma localSocketEventFunc_stays (h : Contained A D) (ha : a ∈ A) (ev : BitVec 16) :
    Stays A (fun D => D) D (D.localSocketEventFunc ev a) := by
  rw [localSocketEventFunc]
  have hwrite : Stays A Prod.snd D (if has ev fdeWrite then D.localSocketWritable a
      else pure (true, D)) := by
    split
    · exact localSocketWritable_stays h ha
    · exact .ok (.refl h)
  refine hwrite.seq fun y _ h₁ => ?_
  obtain ⟨more, D₁⟩ := y
  dsimp only at h₁ ⊢
  split
  · exact localSocketReadable_stays h₁.contained ha
  · exact .ok (.refl h₁.contained)

end Daemon

end Adbd
