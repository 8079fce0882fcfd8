import Adbd.Accounts.Close

/-!
# Accounts: data through sockets

`enqueue` takes the packet it is given: whatever it returns and whatever happens to the socket, the
packet is afterwards released, linked or handed on.  There is one exception, a packet for a socket
with a descriptor whose queue is empty and whose write fails: the socket is closed and the packet
forgotten.
-/

namespace Adbd

open Function Transition

lemma Asocket.plain_of_isFd {s : Asocket} (h : s.ops.isFd = true) : s.Plain := by
  unfold Plain
  cases hops : s.ops
  all_goals rw [hops] at h
  all_goals first | exact trivial | cases h

lemma isLocal_of_isFd {ops : SocketOps} (h : ops.isFd = true) : ops.isLocal = true := by
  cases ops <;> first | rfl | cases h

namespace Daemon

variable {D : Daemon} {a r ss : Addr} {s q : Asocket} {t : TAddr} {p : Apacket}

/-! ## `enqueue` of a socket with a descriptor -/

/-- The packet would be forgotten: nothing is queued, and the write fails. -/
def drops (a : Addr) (p : Apacket) (D : Daemon) : Bool :=
  (D.sockets a).any fun s => s.ops.isFd && s.pkts.isEmpty &&
    (writeLoop ({ p with ptr := 0 } : Apacket).remaining D.io.writes).2.1 = .failed

/-- What `enqueue` does with the packet it is given. -/
def taken (a : Addr) (p : Apacket) (D : Daemon) : ℕ → ℤ :=
  if D.drops a p then 0 else Pi.single p.addr 1

lemma taken_of_not (h : D.drops a p = false) : D.taken a p = Pi.single p.addr 1 := by
  rw [taken, h]
  rfl

/-- A socket without a descriptor keeps account of every packet. -/
lemma taken_eq (hs : D.sockets a = some s) (h : s.ops.isFd = false) :
    D.taken a p = Pi.single p.addr 1 := by
  refine taken_of_not ?_
  simp [drops, hs, h]

lemma linkPacket_balanced (hD : D.Sane) (hs : D.sockets a = some s) (hops : s.ops.isFd = true) :
    Balanced (Pi.single p.addr 1) 0 Prod.snd D (D.linkPacket a p) fun _ => True := by
  rw [linkPacket, deref_bind hs]
  have hlink := Books.store hD hs { s with pkts := s.pkts ++ [p] } rfl
    (fun p hp => hD.typed a s p hs hp) (Asocket.plain_of_isFd hops)
  refine .after hlink (k := 0) (m := 0) ?_ ?_ (le_refl _)
  · refine (onLoop_balanced hlink.sane fun _ h => fdeventAdd_notFull h).seq fun D' h' _ => ?_
    exact .ok (.refl h'.sane) trivial
  · funext n
    rw [Pi.add_apply, occurrences_append, ← occurrences_singleton]
    simp

lemma localSocketEnqueue_balanced (hD : D.Sane) (hs : D.sockets a = some s)
    (hops : s.ops.isFd = true) :
    Balanced (D.taken a p) 1 Prod.snd D (D.localSocketEnqueue a p) fun _ => True := by
  rw [localSocketEnqueue, deref_bind hs]
  dsimp only
  by_cases hq : s.pkts = []
  case neg =>
    have hnot : D.drops a p = false := by simp [drops, hs, hq]
    rw [if_pos hq, taken_of_not hnot]
    have hnote : Books 0 0 D
        (D.emit (.enqueued a ({ p with ptr := 0 } : Apacket).remaining [])) := .quiet hD rfl
    exact .next hnote ((linkPacket_balanced (p := { p with ptr := 0 }) hnote.sane hs hops).mono rfl
      (Nat.zero_le _) fun _ h => h)
  case pos =>
    rw [if_neg (not_not_intro hq)]
    rcases hwrite : writeLoop ({ p with ptr := 0 } : Apacket).remaining D.io.writes with
      ⟨out, e, ws⟩
    dsimp only
    set D₁ : Daemon := { D with io := { D.io with writes := ws } }.emit
      (.enqueued a ({ p with ptr := 0 } : Apacket).remaining out)
    have hnote : Books 0 0 D D₁ := Books.quiet hD rfl
    refine .next hnote ?_
    cases e with
    | done =>
      have hnot : D.drops a p = false := by simp [drops, hs, hwrite]
      rw [taken_of_not hnot]
      exact .ok ((Books.putApacket hnote.sane { p with ptr := 0 }).mono rfl (Nat.zero_le _)) trivial
    | again =>
      have hnot : D.drops a p = false := by simp [drops, hs, hwrite]
      rw [taken_of_not hnot]
      exact (linkPacket_balanced (p := advance { p with ptr := 0 } out.length) hnote.sane hs
        hops).mono rfl (Nat.zero_le _) fun _ h => h
    | failed =>
      have hdrop : D.drops a p = true := by simp [drops, hs, hops, hq, hwrite]
      rw [taken, hdrop]
      have hfail : Books 0 0 D₁ (D₁.emit (.writeFailed a)) := Books.quiet hnote.sane rfl
      refine .next hfail ((close_balanced hfail.sane a).bind 0 0 (fun D₂ h₂ _ => ?_) (add_zero _)
        (le_refl _))
      exact .ok (.refl h₂.sane) trivial

/-! ## `enqueue` of the other kinds -/

lemma peerOf_balanced (hD : D.Sane) (a : Addr) (s : Asocket) :
    Balanced 0 0 (fun _ => D) D (peerOf a s) fun p => s.peer = some p := by
  rw [peerOf]
  cases hp : s.peer with
  | none => exact .error (by simp)
  | some p => exact .ok (.refl hD) rfl

lemma transport_of_remote (hD : D.Sane) (hs : D.sockets r = some s) (hops : s.ops = .remote) :
    ∃ t, s.transport = some t := by
  have hplain := hD.plain r s hs
  rw [Asocket.Plain, hops] at hplain
  exact Option.isSome_iff_exists.mp hplain.1

/-- A remote socket hands the packet on. -/
lemma remoteSocketEnqueue_balanced (hD : D.Sane) (hs : D.sockets r = some s)
    (hops : s.ops = .remote) :
    Balanced (Pi.single p.addr 1) 1 Prod.snd D (D.remoteSocketEnqueue r p) fun _ => True := by
  obtain ⟨t, ht⟩ := transport_of_remote hD hs hops
  rw [remoteSocketEnqueue, deref_bind hs]
  refine (peerOf_balanced hD r s).seq fun a _ _ => ?_
  refine (deref_balanced hD a).seq fun q _ _ => ?_
  rw [ht]
  refine (sendPacket_balanced hD (some r) _ t).bind 0 0 (fun D' h' _ => ?_) (add_zero _) (le_refl _)
  exact .ok (.refl h'.sane) trivial

/-- A JDWP socket releases the packet and has itself closed. -/
lemma jdwpSocketEnqueue_balanced (hD : D.Sane) (a : Addr) :
    Balanced (Pi.single p.addr 1) 1 Prod.snd D (D.jdwpSocketEnqueue a p) fun _ => True := by
  have hput := Books.putApacket hD p
  refine .after hput (k := 0) (m := 1) ?_ (add_zero _) (le_refl _)
  refine (deref_balanced hput.sane a).seq fun s _ _ => ?_
  refine (peerOf_balanced hput.sane a s).seq fun r _ _ => ?_
  refine (close_balanced hput.sane r).bind 0 0 (fun D' h' _ => ?_) (add_zero _) (le_refl _)
  exact .ok (.refl h'.sane) trivial

/-! ## Smart sockets -/

lemma connectToRemote_balanced (hD : D.Sane) (hs : D.sockets a = some s)
    (ht : s.transport = some t) (destination : List UInt8) :
    Balanced 0 1 (fun D' => D') D (D.connectToRemote a destination) (Touches ∅ D) := by
  rw [connectToRemote, deref_bind hs]
  have hget := Books.getApacket hD
  refine .after hget (k := Pi.single D.nextPacket 1) (m := 1) ?_ (single_cancel _) (le_refl _)
  dsimp only
  split
  · exact .error (by simp)
  · rw [ht]
    refine (sendPacket_balanced hget.sane none _ t).mono rfl (le_refl _) fun D' h => ?_
    have hsame : Touches ∅ D D.getApacket.2 := .of_eq rfl rfl
    exact hsame.trans h

lemma smartSocketFail_balanced (hD : D.Sane) (ss : Addr) :
    Balanced 0 1 Prod.snd D (D.smartSocketFail ss) fun _ => True := by
  refine (close_balanced hD ss).bind 0 0 (fun D' h' _ => ?_) (add_zero _) (le_refl _)
  exact .ok (.refl h'.sane) trivial

/-- The client is handed over with its own queue, and its `A_OPEN` is the only packet sent. -/
lemma smartSocketHandOver_balanced (hD : D.Sane) (hs : D.sockets ss = some s)
    (hops : s.ops = .smart) (hp : s.peer = some a) (t : TAddr) (destination : List UInt8) :
    Balanced 0 1 Prod.snd D (D.smartSocketHandOver ss a t destination) fun _ => True := by
  rw [smartSocketHandOver]
  refine (deref_balanced hD a).seq fun q _ hq => ?_
  have hlocal : q.ops.isLocal = true := by
    rw [(hD.typed ss s a hs hp).2 q hq, hops]
    rfl
  have hne : ss ≠ a := by
    rintro rfl
    cases hs.symm.trans hq
    rw [hops] at hlocal
    cases hlocal
  have hhand : Books 0 0 D
      (D.setSocket a { q with ops := .fdNotify, peer := none, transport := some t }) := by
    refine (Books.store hD hq { q with ops := .fdNotify, peer := none, transport := some t } ?_
      (fun b h => by cases h) trivial).mono ?_ (le_refl _)
    · rw [hlocal]
      rfl
    · funext n
      exact sub_self _
  refine .next hhand ?_
  refine (connectToRemote_balanced hhand.sane (setSocket_sockets_self ..) rfl destination).bind 0 0
    (fun D₁ h₁ htouch => ?_) (add_zero _) (le_refl _)
  have hss : D₁.sockets ss = some s := by
    rw [htouch.sockets ss (Set.notMem_empty ss)]
    exact (update_of_ne hne ..).trans hs
  rw [deref_bind hss]
  have hcut := Books.assign h₁.sane hss { s with peer := none } rfl (.inl rfl) rfl rfl
  refine .next hcut ((close_smart_balanced hcut.sane (setSocket_sockets_self ..) hops).seq
    fun D₂ h₂ _ => ?_)
  exact .ok (.refl h₂.sane) trivial

/-- What is gathered keeps the packet that came first. -/
lemma gather_addr {first : Apacket} (h : gather s p = some first) :
    (s.pkts = [] ∧ first = p) ∨ ∃ q rest, s.pkts = q :: rest ∧ first.addr = q.addr := by
  rw [gather] at h
  split at h
  case h_1 hnil => exact .inl ⟨hnil, (Option.some.inj h).symm⟩
  case h_2 q rest hq =>
    split at h
    · cases h
    · exact .inr ⟨q, rest, hq, (Option.some.inj h) ▸ rfl⟩

/-- A smart socket links the packet or, when it has one already, copies it and releases it. -/
lemma smartSocketEnqueue_balanced (hD : D.Sane) (hs : D.sockets ss = some s)
    (hops : s.ops = .smart) :
    Balanced (Pi.single p.addr 1) 1 Prod.snd D (D.smartSocketEnqueue ss p) fun _ => True := by
  have hlen : s.pkts.length ≤ 1 := by
    have hplain := hD.plain ss s hs
    rw [Asocket.Plain, hops] at hplain
    exact hplain
  rw [smartSocketEnqueue, deref_bind hs]
  dsimp only
  set D₁ : Daemon := if s.pkts = [] then D else D.putApacket p with hD₁
  set put : ℕ → ℤ := if s.pkts = [] then 0 else Pi.single p.addr 1 with hput
  have hbooks : Books put 0 D D₁ := by
    rw [hput, hD₁]
    split
    · exact .refl hD
    · exact .putApacket hD p
  have hs₁ : D₁.sockets ss = some s := by
    rw [hD₁]
    split
    · exact hs
    · exact hs
  cases hgather : gather s p with
  | none =>
    have hne : s.pkts ≠ [] := by
      intro hnil
      rw [gather, hnil] at hgather
      cases hgather
    rw [if_neg hne] at hput
    exact .after hbooks (smartSocketFail_balanced hbooks.sane ss) (by rw [hput, add_zero])
      (le_refl _)
  | some first =>
    have hplain : ({ s with pkts := [first] } : Asocket).Plain := by
      rw [Asocket.Plain, show ({ s with pkts := [first] } : Asocket).ops = .smart from hops]
      exact le_refl _
    have hlink := Books.store hbooks.sane hs₁ { s with pkts := [first] } rfl
      (fun p hp => hbooks.sane.typed ss s p hs₁ hp) hplain
    have hsum : Books (Pi.single p.addr 1) 0 D (D₁.setSocket ss { s with pkts := [first] }) := by
      refine (hbooks.trans hlink).mono ?_ (le_refl _)
      funext n
      dsimp only
      rw [Pi.add_apply, occurrences_singleton]
      rcases gather_addr hgather with ⟨hnil, rfl⟩ | ⟨q, rest, hq, haddr⟩
      · rw [hput, if_pos hnil, hnil]
        simp [occurrences]
      · have hrest : rest = [] := by
          rw [hq] at hlen
          simpa using hlen
        rw [hput, hq, hrest, if_neg (List.cons_ne_nil _ _), occurrences_singleton, haddr]
        simp
    refine .after hsum (k := 0) (m := 1) ?_ (add_zero _) (le_refl _)
    have hwait : Balanced 0 1 Prod.snd (D₁.setSocket ss { s with pkts := [first] })
        (.ok ((0 : Int), D₁.setSocket ss { s with pkts := [first] })) fun _ => True :=
      .ok ((Books.refl hsum.sane).mono rfl (Nat.zero_le _)) trivial
    have hfail := smartSocketFail_balanced hsum.sane ss
    dsimp only
    split
    · exact hwait
    split
    · exact hfail
    split
    · exact hfail
    split
    · exact hwait
    refine (peerOf_balanced hsum.sane ss _).seq fun a _ ha => ?_
    split
    case h_1 err _ =>
      have hquiet : Books 0 0 (D₁.setSocket ss { s with pkts := [first] })
          ((D₁.setSocket ss { s with pkts := [first] }).sendfailmsg a err) :=
        .quiet hsum.sane (sendfailmsg_ledger a err _)
      exact .next hquiet (smartSocketFail_balanced hquiet.sane ss)
    case h_2 t _ =>
      exact smartSocketHandOver_balanced hsum.sane (setSocket_sockets_self ..) hops ha t _

/-! ## The calls through the pointers -/

/-- `enqueue` takes its packet and sends at most one. -/
theorem enqueue_balanced (hD : D.Sane) (a : Addr) (p : Apacket) :
    Balanced (D.taken a p) 1 Prod.snd D (D.enqueue a p) fun _ => True := by
  cases hs : D.sockets a with
  | none =>
    rw [enqueue, deref, hs]
    exact .error (by simp)
  | some s =>
    rw [enqueue, deref_bind hs]
    cases hops : s.ops with
    | fd => exact localSocketEnqueue_balanced hD hs (by rw [hops]; rfl)
    | fdNotify => exact localSocketEnqueue_balanced hD hs (by rw [hops]; rfl)
    | remote =>
      rw [taken_eq hs (by rw [hops]; rfl)]
      exact remoteSocketEnqueue_balanced hD hs hops
    | smart =>
      rw [taken_eq hs (by rw [hops]; rfl)]
      exact smartSocketEnqueue_balanced hD hs hops
    | jdwp =>
      rw [taken_eq hs (by rw [hops]; rfl)]
      exact jdwpSocketEnqueue_balanced hD a
    | tracker =>
      rw [taken_eq hs (by rw [hops]; rfl)]
      exact jdwpSocketEnqueue_balanced hD a

/-- What a socket of the lists enqueues on its peer is not forgotten. -/
lemma enqueue_peer_balanced (hD : D.Sane) (hs : D.sockets a = some s)
    (hlocal : s.ops.isLocal = true) {peer : Addr} (hp : s.peer = some peer) (p : Apacket) :
    Balanced (Pi.single p.addr 1) 1 Prod.snd D (D.enqueue peer p) fun _ => True := by
  have htaken : D.taken peer p = Pi.single p.addr 1 := by
    cases hq : D.sockets peer with
    | none => exact taken_of_not (by simp [drops, hq])
    | some q =>
      have hkind := (hD.typed a s peer hs hp).2 q hq
      rw [hlocal] at hkind
      refine taken_eq hq ?_
      cases hops : q.ops
      all_goals rw [hops] at hkind
      all_goals first | rfl | cases hkind
  rw [← htaken]
  exact enqueue_balanced hD peer p

/-- A packet that is asked for and enqueued on the peer at once is no change. -/
lemma enqueue_fresh_balanced (hD : D.Sane) (hs : D.sockets a = some s)
    (hlocal : s.ops.isLocal = true) {peer : Addr} (hp : s.peer = some peer) (len : ℕ)
    (data : List UInt8) :
    Balanced 0 1 Prod.snd D
      (D.getApacket.2.enqueue peer { D.getApacket.1 with len := len, data := data })
      fun _ => True := by
  have hget := Books.getApacket hD
  exact .after hget (enqueue_peer_balanced hget.sane hs hlocal hp _) (single_cancel _) (le_refl _)

/-! ## `ready` -/

lemma localSocketReady_balanced (hD : D.Sane) (a : Addr) :
    Balanced 0 0 (fun D' => D') D (D.localSocketReady a) fun _ => True :=
  (onLoop_balanced hD fun _ h => fdeventAdd_notFull h).mono rfl (le_refl _) fun _ _ => trivial

lemma localSocketReadyNotify_balanced (hD : D.Sane) (hs : D.sockets a = some s)
    (hops : s.ops = .fdNotify) :
    Balanced 0 0 (fun D' => D') D (D.localSocketReadyNotify a) fun _ => True := by
  rw [localSocketReadyNotify, deref_bind hs]
  have hfd : Books 0 0 D (D.setSocket a { s with ops := .fd }) := by
    refine (Books.store hD hs { s with ops := .fd } (by rw [hops]; rfl)
      (fun p hp => hD.typed a s p hs hp) trivial).mono ?_ (le_refl _)
    funext n
    exact sub_self _
  refine .next hfd ?_
  dsimp only
  set D₁ : Daemon := { D.setSocket a { s with ops := .fd } with
    io := { D.io with writes := (writeSome (str "OKAY") D.io.writes).2 } }.emit
      (.told a ((writeSome (str "OKAY") D.io.writes).1.getD []))
  have htold : Books 0 0 (D.setSocket a { s with ops := .fd }) D₁ := .quiet hfd.sane rfl
  exact .next htold (localSocketReady_balanced htold.sane a)

lemma remoteSocketReady_balanced (hD : D.Sane) (hs : D.sockets r = some s)
    (hops : s.ops = .remote) :
    Balanced 0 1 (fun D' => D') D (D.remoteSocketReady r) (Touches ∅ D) := by
  obtain ⟨t, ht⟩ := transport_of_remote hD hs hops
  rw [remoteSocketReady, deref_bind hs]
  refine (peerOf_balanced hD r s).seq fun a _ _ => ?_
  refine (deref_balanced hD a).seq fun q _ _ => ?_
  rw [ht]
  exact sendMsg_balanced hD (some r) _ [] t

lemma jdwpSocketReady_balanced (hD : D.Sane) (hs : D.sockets a = some s) (hops : s.ops = .jdwp) :
    Balanced 0 1 (fun D' => D') D (D.jdwpSocketReady a) fun _ => True := by
  rw [jdwpSocketReady, deref_bind hs]
  refine (peerOf_balanced hD a s).seq fun peer _ hp => ?_
  dsimp only
  split
  · refine (enqueue_fresh_balanced hD hs (by rw [hops]; rfl) hp _ _).bind 0 0 (fun y h₁ _ => ?_)
      (add_zero _) (le_refl _)
    refine (deref_balanced h₁.sane a).seq fun s' _ hs' => ?_
    exact .ok (.assign h₁.sane hs' { s' with pass := true } rfl (.inr rfl) rfl rfl) trivial
  · exact close_balanced hD peer

lemma jdwpTrackerReady_balanced (hD : D.Sane) (hs : D.sockets a = some s)
    (hops : s.ops = .tracker) :
    Balanced 0 1 (fun D' => D') D (D.jdwpTrackerReady a) fun _ => True := by
  rw [jdwpTrackerReady, deref_bind hs]
  split
  · exact .ok ((Books.refl hD).mono rfl (Nat.zero_le _)) trivial
  · have htold := Books.assign hD hs { s with needUpdate := false } rfl (.inr rfl) rfl rfl
    have hget := Books.getApacket htold.sane
    refine .next htold (.after hget (k := Pi.single D.nextPacket 1) (m := 1) ?_ (single_cancel _)
      (le_refl _))
    refine (peerOf_balanced hget.sane a s).seq fun peer _ hp => ?_
    refine (enqueue_peer_balanced hget.sane (setSocket_sockets_self ..) ?_ hp _).bind 0 0
      (fun y h₁ _ => ?_) (add_zero _) (le_refl _)
    · rw [show ({ s with needUpdate := false } : Asocket).ops = .tracker from hops]
      rfl
    · exact .ok (.refl h₁.sane) trivial

/-- `ready` sends at most one packet. -/
theorem ready_balanced (hD : D.Sane) (a : Addr) :
    Balanced 0 1 (fun D' => D') D (D.ready a) fun _ => True := by
  cases hs : D.sockets a with
  | none =>
    rw [ready, deref, hs]
    exact .error (by simp)
  | some s =>
    rw [ready, deref_bind hs]
    cases hops : s.ops with
    | fd => exact (localSocketReady_balanced hD a).mono rfl (Nat.zero_le _) fun _ h => h
    | fdNotify =>
      exact (localSocketReadyNotify_balanced hD hs hops).mono rfl (Nat.zero_le _) fun _ h => h
    | remote =>
      exact (remoteSocketReady_balanced hD hs hops).mono rfl (le_refl _) fun _ _ => trivial
    | smart => exact .ok ((Books.refl hD).mono rfl (Nat.zero_le _)) trivial
    | jdwp => exact jdwpSocketReady_balanced hD hs hops
    | tracker => exact jdwpTrackerReady_balanced hD hs hops

/-- The `ready` of the peer of a socket of the lists does nothing to any socket. -/
lemma ready_peer_balanced (hD : D.Sane) (hs : D.sockets a = some s)
    (hlocal : s.ops.isLocal = true) {peer : Addr} (hp : s.peer = some peer) :
    Balanced 0 1 (fun D' => D') D (D.ready peer) (Touches ∅ D) := by
  cases hq : D.sockets peer with
  | none =>
    rw [ready, deref, hq]
    exact .error (by simp)
  | some q =>
    have hkind := (hD.typed a s peer hs hp).2 q hq
    rw [hlocal] at hkind
    rw [ready, deref_bind hq]
    cases hops : q.ops with
    | remote => exact remoteSocketReady_balanced hD hq hops
    | smart => exact .ok ((Books.refl hD).mono rfl (Nat.zero_le _)) (.refl D)
    | _ =>
      rw [hops] at hkind
      cases hkind

/-! ## The event function -/

/-- The packets that were queued are released or still queued. -/
lemma drain_occurrences (n : ℕ) (ps : List Apacket) (ws : List Syscall.WriteResult) :
    occurrences n (drain ps ws).pkts + occurrences n (drain ps ws).freed = occurrences n ps := by
  induction ps generalizing ws with
  | nil => rfl
  | cons p ps ih =>
    have hcons : ∀ (q : Apacket) (qs : List Apacket),
        occurrences n (q :: qs) = occurrences n [q] + occurrences n qs :=
      fun q qs => occurrences_append n [q] qs
    have hmoved : ∀ k, occurrences n [advance p k] = occurrences n [p] := fun _ => rfl
    rw [drain]
    split
    case h_1 out ws' _ =>
      have h := ih ws'
      dsimp only
      rw [hcons (advance p out.length), hcons p ps, hmoved]
      omega
    case h_2 out _ _ _ _ =>
      dsimp only
      rw [hcons (advance p out.length), hcons p ps, hmoved]
      rfl

/-- The `FDE_WRITE` branch sends at most one packet. -/
lemma localSocketWritable_balanced (hD : D.Sane)
    (hops : ∀ s, D.sockets a = some s → s.ops.isFd = true) :
    Balanced 0 1 Prod.snd D (D.localSocketWritable a) fun y => y.1 = true →
      ∀ s, y.2.sockets a = some s → s.ops.isFd = true := by
  refine (deref_balanced hD a).seq fun s _ hs => ?_
  dsimp only
  set d := drain s.pkts D.io.writes with hd
  set D₁ : Daemon := { D.setSocket a { s with pkts := d.pkts } with
    io := { D.io with writes := d.writes } }.emit (.wrote a d.written)
  have hstore := Books.store hD hs { s with pkts := d.pkts } rfl
    (fun p hp => hD.typed a s p hs hp) (Asocket.plain_of_isFd (hops s hs))
  have hstored : Books (fun n => (occurrences n d.pkts : ℤ) - occurrences n s.pkts) 0 D D₁ :=
    hstore.of_ledger rfl
  have hputs := Books.putApackets hstored.sane d.freed
  have hboth : Books 0 0 D (D₁.putApackets d.freed) := by
    refine (hstored.trans hputs).mono ?_ (le_refl _)
    funext n
    have hsum := drain_occurrences n s.pkts D.io.writes
    rw [← hd] at hsum
    rw [Pi.add_apply, ← hsum]
    simp
  have hclosed : ∀ D₂ : Daemon, Books 0 0 D D₂ → Balanced 0 1 Prod.snd D
      (D₂.close a >>= fun D₃ => .ok (false, D₃)) fun y => y.1 = true →
        ∀ s, y.2.sockets a = some s → s.ops.isFd = true := by
    intro D₂ h₂
    refine .next h₂ ((close_balanced h₂.sane a).bind 0 0 (fun D₃ h₃ _ => ?_) (add_zero _)
      (le_refl _))
    exact .ok (.refl h₃.sane) nofun
  split
  · exact .ok (hboth.mono rfl (Nat.zero_le _)) nofun
  · exact hclosed _ (hboth.of_ledger rfl)
  · split
    · exact hclosed _ hboth
    · refine .next hboth ?_
      refine (onLoop_balanced hboth.sane fun _ h => fdeventDel_notFull h).seq fun D₂ h₂ hL => ?_
      obtain ⟨L, rfl⟩ := hL
      obtain ⟨os, -, heq⟩ := putApackets_eq d.freed D₁
      have hself : (D₁.putApackets d.freed).sockets a = some { s with pkts := d.pkts } := by
        rw [heq]
        exact setSocket_sockets_self ..
      refine (peerOf_balanced h₂.sane a s).seq fun peer _ hp => ?_
      refine (ready_peer_balanced h₂.sane hself (isLocal_of_isFd (hops s hs)) hp).bind 0 0
        (fun D₃ h₃ htouch => ?_) (add_zero _) (le_refl _)
      refine .ok (.refl h₃.sane) fun _ s' hs' => ?_
      have hsame : D₃.sockets a = some { s with pkts := d.pkts } :=
        (htouch.sockets a (Set.notMem_empty a)).trans hself
      cases hsame.symm.trans hs'
      exact hops s hs

/-- The `FDE_READ` branch sends at most two packets: what it has read, and an `A_CLSE`. -/
lemma localSocketReadable_balanced (hD : D.Sane)
    (hops : ∀ s, D.sockets a = some s → s.ops.isFd = true) :
    Balanced 0 2 (fun D' => D') D (D.localSocketReadable a) fun _ => True := by
  rw [localSocketReadable]
  dsimp only
  rcases readLoop maxPayload D.getApacket.2.io.reads with ⟨bytes, eof, rs⟩
  dsimp only
  set D₁ : Daemon := { D.getApacket.2 with
    io := { D.getApacket.2.io with reads := rs } }.emit (.read a bytes)
  have hget : Books (Pi.single D.nextPacket (-1)) 0 D D₁ := (Books.getApacket hD).of_ledger rfl
  refine .after hget (k := Pi.single D.nextPacket 1) (m := 2) ?_ (single_cancel _) (le_refl _)
  refine (deref_balanced hget.sane a).seq fun s _ hs => ?_
  have hfd : s.ops.isFd = true := hops s hs
  -- nothing came, or there is nobody to give it to
  have hdropped : Balanced (Pi.single D.nextPacket 1) 2 (fun D' => D') D₁
      (if eof = true then (D₁.putApacket D.getApacket.1).close a
        else .ok (D₁.putApacket D.getApacket.1)) fun _ => True := by
    have hput := Books.putApacket hget.sane D.getApacket.1
    refine .after hput (k := 0) (m := 2) ?_ (add_zero _) (le_refl _)
    split
    · exact (close_balanced hput.sane a).mono rfl (by omega) fun _ h => h
    · exact .ok ((Books.refl hput.sane).mono rfl (Nat.zero_le _)) trivial
  cases hp : s.peer with
  | none => exact hdropped
  | some peer =>
    dsimp only
    split
    · exact hdropped
    · refine (enqueue_peer_balanced hget.sane hs (isLocal_of_isFd hfd) hp _).bind 0 1
        (fun y h₂ _ => ?_) (add_zero _) (le_refl _)
      obtain ⟨res, D₂⟩ := y
      dsimp only at h₂ ⊢
      split
      · exact .ok ((Books.refl h₂.sane).mono rfl (Nat.zero_le _)) trivial
      have hdel : Balanced 0 0 (fun D' => D') D₂ (if res = 0 then .ok D₂
          else D₂.onLoop (Loop.fdeventDel (.socket a) fdeRead)) fun _ => True := by
        split
        · exact .ok (.refl h₂.sane) trivial
        · exact (onLoop_balanced h₂.sane fun _ h => fdeventDel_notFull h).mono rfl (le_refl _)
            fun _ _ => trivial
      refine hdel.seq fun D₃ h₃ _ => ?_
      split
      · exact close_balanced h₃.sane a
      · exact .ok ((Books.refl h₃.sane).mono rfl (Nat.zero_le _)) trivial

/-- An event of a socket with a descriptor sends at most three packets. -/
theorem localSocketEventFunc_balanced (hD : D.Sane)
    (hops : ∀ s, D.sockets a = some s → s.ops.isFd = true) (ev : BitVec 16) :
    Balanced 0 3 (fun D' => D') D (D.localSocketEventFunc ev a) fun _ => True := by
  rw [localSocketEventFunc]
  have hwrite : Balanced 0 1 Prod.snd D (if FlagWord.has ev fdeWrite then D.localSocketWritable a
      else pure (true, D)) fun y => y.1 = true →
        ∀ s, y.2.sockets a = some s → s.ops.isFd = true := by
    split
    · exact localSocketWritable_balanced hD hops
    · exact .ok ((Books.refl hD).mono rfl (Nat.zero_le _)) fun _ => hops
  refine hwrite.bind 0 2 (fun y h₁ hfd => ?_) (add_zero _) (le_refl _)
  obtain ⟨more, D₁⟩ := y
  dsimp only at h₁ hfd ⊢
  split
  case isTrue hmore =>
    refine localSocketReadable_balanced h₁.sane (hfd ?_)
    rw [Bool.and_eq_true] at hmore
    exact hmore.1
  case isFalse => exact .ok ((Books.refl h₁.sane).mono rfl (Nat.zero_le _)) trivial

/-! ## Creating sockets -/

/-- The address is that of a socket of the lists. -/
def LocalAt (a : Addr) (D : Daemon) : Prop := ∃ s, D.sockets a = some s ∧ s.ops.isLocal = true

/-- A new socket that is put into the list. -/
lemma install_balanced (hD : D.Sane) {D₁ : Daemon} (s : Asocket)
    (heq : D₁.ledger = (D.callocSocket s).2.ledger) (hpkts : s.pkts = []) (hplain : s.Plain)
    (hlocal : s.ops.isLocal = true) (hp : s.peer = none) :
    Balanced 0 0 (fun D' => D') D (D₁.installLocalSocket D.nextAddr) (LocalAt D.nextAddr) := by
  have hnew : Books 0 0 D (D.callocSocket s).2 := by
    refine .calloc hD hpkts hplain fun p h => ?_
    rw [hp] at h
    cases h
  have hnew' : Books 0 0 D D₁ := hnew.of_ledger heq
  refine .next hnew' ((installLocalSocket_balanced hnew'.sane _).mono rfl (le_refl _)
    fun D' h => ?_)
  obtain ⟨-, -, s', i, hs', hsockets⟩ := h
  have hself : D₁.sockets D.nextAddr = some s := by
    rw [show D₁.sockets = (D.callocSocket s).2.sockets from congrArg Ledger.sockets heq]
    exact update_self ..
  cases hself.symm.trans hs'
  exact ⟨{ s with id := i }, by rw [hsockets, update_self], hlocal⟩

lemma createLocalSocket_balanced (hD : D.Sane) (fd : ℕ) :
    Balanced 0 0 Prod.snd D (D.createLocalSocket fd) fun y => LocalAt y.1 y.2 := by
  refine (install_balanced hD { ops := .fd, fd := fd } rfl rfl trivial rfl rfl).seq
    fun D₁ h₁ hl => ?_
  refine (onLoop_balanced h₁.sane fun _ h => fdeventInstall_notFull h).seq fun D₂ h₂ hL => ?_
  obtain ⟨L, rfl⟩ := hL
  exact .ok (.refl h₂.sane) hl

lemma createJdwpServiceSocket_balanced (hD : D.Sane) :
    Balanced 0 0 Prod.snd D D.createJdwpServiceSocket fun y => LocalAt y.1 y.2 := by
  refine (install_balanced hD { ops := .jdwp } rfl rfl rfl rfl rfl).seq fun D₁ h₁ hl => ?_
  exact .ok (.refl h₁.sane) hl

lemma touchTrackers_balanced (hD : D.Sane) (l : List Addr) :
    Balanced 0 0 (fun _ => D) D (D.touchTrackers l) fun _ => True := by
  rw [touchTrackers]
  split
  · exact .ok (.refl hD) trivial
  · exact .error (by simp)

lemma createJdwpTrackerServiceSocket_balanced (hD : D.Sane) :
    Balanced 0 0 Prod.snd D D.createJdwpTrackerServiceSocket fun y => LocalAt y.1 y.2 := by
  refine (touchTrackers_balanced hD _).seq fun _ _ _ => ?_
  refine Balanced.seq (install_balanced hD { ops := .tracker, needUpdate := true } (by rfl) rfl rfl
    rfl rfl) fun D₁ h₁ hl => ?_
  exact .ok (.refl h₁.sane) hl

/-- A socket is given a peer. -/
lemma link_books (hD : D.Sane) (hs : D.sockets a = some s) {b : Addr} (hb : b < D.nextAddr)
    (hkind : ∀ q, D.sockets b = some q → q.ops.isLocal = !s.ops.isLocal) :
    Books 0 0 D (D.setSocket a { s with peer := some b }) := by
  refine (Books.store hD hs { s with peer := some b } rfl (fun p hp => ?_) ?_).mono ?_ (le_refl _)
  · cases hp
    exact ⟨hb, hkind⟩
  · exact hD.plain a s hs
  · funext n
    exact sub_self _

/-- A socket of the lists is paired with a new remote socket. -/
lemma pairRemote_balanced (hD : D.Sane) (hl : LocalAt a D) (id : UInt32) (t : TAddr) :
    Balanced 0 0 Prod.snd D (D.pairRemote a id t) fun _ => True := by
  obtain ⟨s, hs, hlocal⟩ := hl
  have hlt : a < D.nextAddr := hD.fresh a s hs
  have hnew : Books 0 0 D
      (D.callocSocket { ops := .remote, id := id, transport := some t }).2 :=
    .calloc hD rfl ⟨rfl, rfl⟩ nofun
  refine .next hnew ?_
  have hcreate : Balanced 0 0 Prod.snd
      (D.callocSocket { ops := .remote, id := id, transport := some t }).2
      (D.createRemoteSocket id t) fun y => y.1 = D.nextAddr ∧ y.2.nextAddr = D.nextAddr + 1 ∧
        y.2.sockets = update D.sockets D.nextAddr
          (some { ops := .remote, id := id, transport := some t }) := by
    refine (addTransportDisconnect_balanced hnew.sane t D.nextAddr).seq fun D₁ h₁ hsame => ?_
    exact .ok (.refl h₁.sane) ⟨rfl, hsame.2, hsame.1⟩
  refine hcreate.seq fun y h₁ hy => ?_
  obtain ⟨r, D₁⟩ := y
  obtain ⟨rfl, hnext, hsockets⟩ := hy
  dsimp only at h₁ hnext hsockets ⊢
  have hs₁ : D₁.sockets a = some s := by rw [hsockets, update_of_ne (Nat.ne_of_lt hlt), hs]
  have hr₁ : D₁.sockets D.nextAddr =
      some { ops := .remote, id := id, transport := some t } := by rw [hsockets, update_self]
  rw [deref_bind hs₁]
  have hfst : Books 0 0 D₁ (D₁.setSocket a { s with peer := some D.nextAddr }) := by
    refine link_books h₁.sane hs₁ (by rw [hnext]; exact Nat.lt_succ_self _) fun q hq => ?_
    cases hr₁.symm.trans hq
    rw [hlocal]
    rfl
  refine .next hfst ?_
  have hr₂ : (D₁.setSocket a { s with peer := some D.nextAddr }).sockets D.nextAddr =
      some { ops := .remote, id := id, transport := some t } :=
    (update_of_ne (Nat.ne_of_gt hlt) ..).trans hr₁
  rw [deref_bind hr₂]
  have hsnd := link_books hfst.sane hr₂ (b := a) (by
    show a < D₁.nextAddr
    rw [hnext]
    exact Nat.lt_succ_of_lt hlt) fun q hq => by
      cases (setSocket_sockets_self ..).symm.trans hq
      exact hlocal
  exact .ok (hsnd.of_ledger rfl) trivial

/-- The socket of a client is paired with a new smart socket. -/
lemma connectToSmartsocket_balanced (hD : D.Sane) (hl : LocalAt a D) :
    Balanced 0 1 (fun D' => D') D (D.connectToSmartsocket a) fun _ => True := by
  obtain ⟨s, hs, hlocal⟩ := hl
  have hlt : a < D.nextAddr := hD.fresh a s hs
  have hnew : Books 0 0 D (D.callocSocket { ops := .smart, peer := some a }).2 := by
    refine .calloc hD rfl (Nat.zero_le _) fun p hp => ?_
    cases hp
    refine ⟨hlt, fun q hq => ?_⟩
    cases hs.symm.trans hq
    rw [hlocal]
    rfl
  refine .next hnew ?_
  have hs₁ : (D.callocSocket { ops := .smart, peer := some a }).2.sockets a = some s :=
    (update_of_ne (Nat.ne_of_lt hlt) ..).trans hs
  rw [connectToSmartsocket]
  dsimp only
  rw [deref_bind hs₁]
  have hlink := link_books hnew.sane hs₁ (b := D.nextAddr) (Nat.lt_succ_self _) fun q hq => by
    cases (update_self ..).symm.trans hq
    rw [hlocal]
    rfl
  exact .next hlink (ready_balanced hlink.sane a)

end Daemon

end Adbd
