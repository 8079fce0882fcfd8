import Adbd.Confinement.Basic

/-!
# Confinement: closing sockets

Closing a socket stays within every set that it is in: what is closed besides is its peer.  The
two walks that close the sockets of a transport stay within a set that holds all of these.

The five `close` functions call each other through the peer, so they are treated together:
`Homely` says that whatever `close` the peer has stays within the set, and `closeSocket_homely` is
the induction on the depth of the calls.  `run_transport_disconnects` closes what is linked with
the transport, which `LinkedWithin` says is in the set; `close_all_sockets` closes what is bound to
it by its own transport or its peer's, and starts over after each one, so that it has to be known
that closing one socket binds no other.
-/

namespace Adbd

open Function Transition Footprint

namespace Daemon

variable {A : Set Addr} {D D' : Daemon} {a b r p : Addr} {s : Asocket} {t : TAddr}
  {x : Atransport} {close : Addr → Daemon → Except Stop Daemon}

/-! ## One socket -/

lemma removeSocket_stays (h : Contained A D) (ha : a ∈ A) :
    Stays A (fun D => D) D (D.removeSocket a) := by
  rw [removeSocket]
  refine .deref fun s hs => ?_
  split
  · have hset := Within.assign (q := { s with id := 0 }) h ha hs rfl
    exact .ok (hset.trans (.aside hset.contained rfl rfl rfl rfl rfl))
  · exact .ok (.refl h)

lemma removeTransportDisconnect_stays (h : Contained A D) (u : Option TAddr) (r : Addr) :
    Stays A (fun D => D) D (D.removeTransportDisconnect u r) := by
  cases u with
  | none => exact .ok (.refl h)
  | some t =>
    rw [removeTransportDisconnect]
    exact .derefT fun x hx => .ok (.setTransport h hx fun _ hr _ => List.mem_of_mem_erase hr)

/-- Taking the peer away. -/
lemma clearPeer_within (h : Contained A D) (ha : a ∈ A) (s : Asocket) :
    Within A D (D.setSocket a { s with peer := none }) :=
  .setSocket h ha (peerless A)

lemma localSocketDestroy_stays (h : Contained A D) (ha : a ∈ A) :
    Stays A (fun D => D) D (D.localSocketDestroy a) := by
  rw [localSocketDestroy]
  refine .deref fun s _ => ?_
  refine (fdeventRemove_stays h (inner_socket ha)).seq fun D₁ _ h₁ => ?_
  have hnote : Within A D₁ (D₁.emit (.destroyed a s.queued)) :=
    .emit h₁.contained fun b hb hab => hb (hab ▸ ha)
  have hput := hnote.trans (putApackets_within hnote.contained s.pkts)
  refine .after hput ((removeSocket_stays hput.contained ha).seq fun D₂ _ h₂ => ?_)
  split
  · trivial
  · exact .ok (.freeSocket h₂.contained ha)

lemma localSocketRetire_stays (h : Contained A D) (ha : a ∈ A) :
    Stays A (fun D => D) D (D.localSocketRetire a) := by
  rw [localSocketRetire]
  refine .deref fun s hs => ?_
  split
  · exact localSocketDestroy_stays h ha
  · have hset := Within.assign (q := { s with closing := true }) h ha hs rfl
    refine .after hset ((fdeventDel_stays hset.contained (inner_socket ha) _).seq
      fun D₁ _ h₁ => ?_)
    refine (removeSocket_stays h₁.contained ha).seq fun D₂ _ h₂ => ?_
    have hlist : Within A D₂ { D₂ with
        localSocketClosingList := D₂.localSocketClosingList ++ [a] } :=
      .aside h₂.contained rfl rfl rfl rfl rfl
    exact .ok (hlist.trans (.emit hlist.contained fun b hb hab => hb (hab ▸ ha)))

/-! ## A socket and its peer -/

/-- The function `close` stays where it is called. -/
def Homely (A : Set Addr) (close : Addr → Daemon → Except Stop Daemon) : Prop :=
  ∀ D a, Contained A D → a ∈ A → Stays A (fun D => D) D (close a D)

lemma closePeer_stays (hclose : Homely A close) (h : Contained A D) (ha : a ∈ A) :
    Stays A (fun D => D) D (D.closePeer close a) := by
  rw [closePeer]
  refine .deref fun s hs => ?_
  cases hp : s.peer with
  | none => exact .ok (.refl h)
  | some p =>
    have hmem : p ∈ A := h.peer ha hs p hp
    refine .deref fun q _ => ?_
    have hclear := clearPeer_within h hmem q
    exact .after hclear (hclose _ p hclear.contained hmem)

lemma localSocketCloseLocked_stays (hclose : Homely A close) (h : Contained A D) (ha : a ∈ A) :
    Stays A (fun D => D) D (D.localSocketCloseLocked close a) := by
  rw [localSocketCloseLocked]
  refine (closePeer_stays hclose h ha).seq fun D₁ _ h₁ => ?_
  refine .deref fun s _ => ?_
  have hclear := clearPeer_within h₁.contained ha s
  exact .after hclear (localSocketRetire_stays hclear.contained ha)

/-- Writing a status text to a client. -/
lemma writexTo_within (h : Contained A D) (ha : a ∈ A) (bs : List UInt8) :
    Within A D (D.writexTo a bs).2 := by
  have hio : ∀ ws, Within A D { D with io := { D.io with writes := ws } } := fun ws =>
    .aside h rfl rfl rfl rfl rfl
  exact (hio _).trans (.emit (hio _).contained fun b hb hab => hb (hab ▸ ha))

lemma sendfailmsg_within (h : Contained A D) (ha : a ∈ A) (reason : String) :
    Within A D (D.sendfailmsg a reason) := by
  rw [sendfailmsg]
  set head := str "FAIL" ++ _ ++ _
  have hhead := writexTo_within h ha head
  rcases hwrite : D.writexTo a head with ⟨ok, D₁⟩
  rw [hwrite] at hhead
  cases ok with
  | false => exact hhead
  | true => exact hhead.trans (writexTo_within hhead.contained ha _)

lemma localSocketCloseNotify_stays (hclose : Homely A close) (h : Contained A D) (ha : a ∈ A) :
    Stays A (fun D => D) D (D.localSocketCloseNotify close a) := by
  rw [localSocketCloseNotify]
  refine .deref fun s hs => ?_
  have hset := Within.assign (q := { s with ops := .fd }) h ha hs rfl
  have hsend := hset.trans (sendfailmsg_within hset.contained ha "closed")
  exact .after hsend (localSocketCloseLocked_stays hclose hsend.contained ha)

lemma remoteSocketClose_stays (hclose : Homely A close) (h : Contained A D) (ha : a ∈ A) :
    Stays A (fun D => D) D (D.remoteSocketClose close a) := by
  rw [remoteSocketClose]
  refine .deref fun s _ => ?_
  have hget := getApacket_within h
  refine .after hget ?_
  -- the id of the peer is read, and nothing changes
  refine Stays.seq (g := fun _ => D.getApacket.2) ?_ fun id _ _ => ?_
  · split
    · exact .ok (.refl hget.contained)
    · exact .deref fun q _ => .ok (.refl hget.contained)
  refine (closePeer_stays hclose hget.contained ha).seq fun D₁ _ h₁ => ?_
  refine (sendPacket_stays h₁.contained (fun r hr => ?_) _ _).seq fun D₂ _ h₂ => ?_
  · rwa [← Option.some.inj hr]
  · refine (removeTransportDisconnect_stays h₂.contained _ a).seq fun D₃ _ h₃ => ?_
    exact .ok (.freeSocket h₃.contained ha)

lemma remoteSocketDisconnect_stays (hclose : Homely A close) (h : Contained A D) (ha : a ∈ A) :
    Stays A (fun D => D) D (D.remoteSocketDisconnect close a) := by
  rw [remoteSocketDisconnect]
  refine .deref fun s _ => ?_
  refine (closePeer_stays hclose h ha).seq fun D₁ _ h₁ => ?_
  refine (removeTransportDisconnect_stays h₁.contained _ a).seq fun D₂ _ h₂ => ?_
  exact .ok (.freeSocket h₂.contained ha)

lemma smartSocketClose_stays (hclose : Homely A close) (h : Contained A D) (ha : a ∈ A) :
    Stays A (fun D => D) D (D.smartSocketClose close a) := by
  rw [smartSocketClose]
  refine .deref fun s _ => ?_
  have hput := putApackets_within h (s.pkts.take 1)
  refine .after hput ((closePeer_stays hclose hput.contained ha).seq fun D₁ _ h₁ => ?_)
  exact .ok (.freeSocket h₁.contained ha)

lemma jdwpSocketClose_stays (hclose : Homely A close) (h : Contained A D) (ha : a ∈ A) :
    Stays A (fun D => D) D (D.jdwpSocketClose close a) := by
  rw [jdwpSocketClose]
  refine (removeSocket_stays h ha).seq fun D₁ _ h₁ => ?_
  refine (closePeer_stays hclose h₁.contained ha).seq fun D₂ _ h₂ => ?_
  exact .ok (.freeSocket h₂.contained ha)

lemma jdwpTrackerClose_stays (hclose : Homely A close) (h : Contained A D) (ha : a ∈ A) :
    Stays A (fun D => D) D (D.jdwpTrackerClose close a) := by
  rw [jdwpTrackerClose]
  refine (closePeer_stays hclose h ha).seq fun D₁ _ h₁ => ?_
  refine (removeSocket_stays h₁.contained ha).seq fun D₂ _ h₂ => ?_
  cases htouch : D₂.touchTrackers (neighbours a D₂.jdwpTrackersList) with
  | error e => trivial
  | ok _ =>
    have hfree := Within.freeSocket h₂.contained ha
    exact .ok (hfree.trans (.aside hfree.contained rfl rfl rfl rfl rfl))

/-- The call through the pointer, at any depth. -/
lemma closeSocket_homely (n : ℕ) : Homely A (closeSocket n) := by
  induction n with
  | zero => exact fun D a _ _ => trivial
  | succ n ih =>
    intro D a h ha
    rw [closeSocket]
    refine .deref fun s _ => ?_
    cases s.ops with
    | fd => exact localSocketCloseLocked_stays ih h ha
    | fdNotify => exact localSocketCloseNotify_stays ih h ha
    | remote => exact remoteSocketClose_stays ih h ha
    | smart => exact smartSocketClose_stays ih h ha
    | jdwp => exact jdwpSocketClose_stays ih h ha
    | tracker => exact jdwpTrackerClose_stays ih h ha

lemma close_stays (h : Contained A D) (ha : a ∈ A) : Stays A (fun D => D) D (D.close a) :=
  closeSocket_homely 2 D a h ha

/-! ## The sockets of a transport -/

/-- What is linked with `t` is in `A`. -/
def LinkedWithin (A : Set Addr) (t : TAddr) (D : Daemon) : Prop :=
  ∀ x, D.transports t = some x → ∀ r ∈ x.disconnects, r ∈ A

lemma Within.linkedWithin (h : Within A D D') (hl : LinkedWithin A t D) : LinkedWithin A t D' := by
  intro y hy r hr
  by_contra hout
  obtain ⟨x, hx, hr'⟩ := h.records t y hy r hr hout
  exact hout (hl x hx r hr')

/-- The loop of `run_transport_disconnects`. -/
lemma runDisconnects_stays (h : Contained A D) (hl : LinkedWithin A t D) (fuel : ℕ)
    (o : Option Addr) (ho : ∀ r, o = some r → r ∈ A) :
    Stays A (fun D => D) D (D.runDisconnects t fuel o) := by
  induction fuel generalizing D o with
  | zero =>
    cases o with
    | none => exact .ok (.refl h)
    | some r => trivial
  | succ fuel ih =>
    cases o with
    | none => exact .ok (.refl h)
    | some r =>
      rw [runDisconnects]
      refine .derefT fun x hx => ?_
      refine (remoteSocketDisconnect_stays (closeSocket_homely 1) h (ho r rfl)).seq
        fun D₁ _ h₁ => ?_
      refine ih h₁.contained (h₁.linkedWithin hl) _ fun r' hr' => hl x hx r' ?_
      have hmem := List.mem_of_mem_head? hr'
      exact (List.dropWhile_suffix _).subset (List.mem_of_mem_drop hmem)

lemma runTransportDisconnects_stays (h : Contained A D) (hl : LinkedWithin A t D) :
    Stays A (fun D => D) D (D.runTransportDisconnects t) := by
  rw [runTransportDisconnects]
  refine .derefT fun x hx => runDisconnects_stays h hl _ _ fun r hr => ?_
  exact hl x hx r (List.mem_of_mem_head? hr)

/-- A socket that is bound to a transport, or whose peer is, was so before the change, or is
inside. -/
lemma Within.boundTo (hw : Within A D D') (h : Contained A D)
    (hb : ∀ b, D.boundTo t b = true → b ∈ A) (hbound : D'.boundTo t b = true) : b ∈ A := by
  by_contra hout
  refine hout (hb b ?_)
  have hsame := (hw.untouched b hout).socket
  rw [Daemon.boundTo, hsame] at hbound
  rw [Daemon.boundTo]
  cases hs : D.sockets b with
  | none =>
    rw [hs] at hbound
    exact hbound
  | some s =>
    rw [hs, Option.any_some, Bool.or_eq_true] at hbound
    rw [Option.any_some, Bool.or_eq_true]
    refine hbound.imp_right fun hpeer => ?_
    obtain ⟨p, hp, hq⟩ := (Option.any_eq_true _ _).mp hpeer
    have hpout : p ∉ A := h.sealed.outside hout hs hp
    rw [(hw.untouched p hpout).socket] at hq
    exact (Option.any_eq_true _ _).mpr ⟨p, hp, hq⟩

/-- `close_all_sockets`. -/
lemma closeAllFuel_stays (h : Contained A D) (hb : ∀ b, D.boundTo t b = true → b ∈ A)
    (fuel : ℕ) : Stays A (fun D => D) D (D.closeAllFuel t fuel) := by
  induction fuel generalizing D with
  | zero => trivial
  | succ fuel ih =>
    rw [closeAllFuel]
    split
    · exact .ok (.refl h)
    case h_2 a hfind =>
      have ha : a ∈ A := hb a (by simpa using List.find?_some hfind)
      refine (localSocketCloseLocked_stays (closeSocket_homely 1) h ha).seq fun D₁ _ h₁ => ?_
      exact ih h₁.contained fun b => h₁.boundTo h hb

lemma closeAllSockets_stays (h : Contained A D) (hb : ∀ b, D.boundTo t b = true → b ∈ A) :
    Stays A (fun D => D) D (D.closeAllSockets t) :=
  closeAllFuel_stays h hb _

end Daemon

end Adbd
