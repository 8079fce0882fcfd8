import Adbd.Accounts.Balanced

/-!
# Accounts: closing sockets

Closing a socket loses no packet: what the socket and its peer have queued is released, or stays
queued until it is flushed, and the `A_CLSE` of a remote socket is handed on.  It is the only packet
sent, since one of the two peers at most is a remote socket.
-/

namespace Adbd

open Function Transition

/-! ## What a close may send -/

/-- How many packets the close of the socket's peer sends. -/
def Asocket.peerDues (s : Asocket) : ℕ :=
  if s.ops.isLocal then if s.peer = none then 0 else 1 else 0

/-- How many packets the close of the socket sends. -/
def Asocket.dues (s : Asocket) : ℕ := s.peerDues + if s.ops = .remote then 1 else 0

lemma Asocket.peerDues_le (s : Asocket) : s.peerDues ≤ 1 := by
  unfold peerDues
  split_ifs <;> omega

lemma Asocket.dues_le (s : Asocket) : s.dues ≤ 1 := by
  unfold dues peerDues
  cases hops : s.ops
  all_goals simp only [SocketOps.isLocal]
  all_goals split_ifs <;> first | omega | contradiction

lemma Asocket.dues_eq {s : Asocket} (h : s.ops ≠ .remote) : s.dues = s.peerDues := by
  rw [dues, if_neg h, add_zero]

/-- The sockets the close of `a` may assign to or free. -/
def closes (a : Addr) (s : Asocket) : Set Addr := {b | b = a ∨ s.peer = some b}

namespace Daemon

variable {D : Daemon} {a p r : Addr} {s q : Asocket} {t : TAddr} {n fuel : ℕ}

/-! ## The socket lists -/

lemma removeSocket_balanced (hD : D.Sane) (a : Addr) :
    Balanced 0 0 (fun D' => D') D (D.removeSocket a) fun D' =>
      D'.transports = D.transports ∧ ∃ s i, D.sockets a = some s ∧
        D'.sockets = update D.sockets a (some { s with id := i }) := by
  cases hs : D.sockets a with
  | none =>
    rw [removeSocket, deref, hs]
    exact .error (by simp)
  | some s =>
    obtain ⟨i, heq⟩ := removeSocket_eq hs
    rw [heq]
    have hbooks := Books.assign hD hs { s with id := i } rfl (.inr rfl) rfl rfl
    exact .ok (hbooks.of_ledger rfl) ⟨rfl, s, i, rfl, rfl⟩

lemma installLocalSocket_balanced (hD : D.Sane) (a : Addr) :
    Balanced 0 0 (fun D' => D') D (D.installLocalSocket a) fun D' =>
      D'.transports = D.transports ∧ D'.nextAddr = D.nextAddr ∧ ∃ s i, D.sockets a = some s ∧
        D'.sockets = update D.sockets a (some { s with id := i }) := by
  refine (deref_balanced hD a).seq fun s _ hs => ?_
  have hbooks := Books.assign hD hs { s with id := D.localSocketNextId } rfl (.inr rfl) rfl rfl
  exact .ok (hbooks.of_ledger rfl) ⟨rfl, rfl, s, _, hs, rfl⟩

/-! ## Sockets with a descriptor -/

/-- `sendfailmsg` only writes to the descriptor. -/
lemma sendfailmsg_ledger (a : Addr) (reason : String) (D : Daemon) :
    (D.sendfailmsg a reason).ledger = D.ledger := by
  have hwritex : ∀ (bs : List UInt8) (D : Daemon), (D.writexTo a bs).2.ledger = D.ledger :=
    fun _ _ => rfl
  rw [sendfailmsg]
  split
  case h_1 D₁ heq =>
    show (false, D₁).2.ledger = _
    rw [← heq, hwritex]
  case h_2 D₁ heq =>
    have h₁ : (true, D₁).2.ledger = D.ledger := by rw [← heq, hwritex]
    rw [hwritex]
    exact h₁

/-- The packets of the socket are released before it is freed. -/
lemma localSocketDestroy_balanced (hD : D.Sane) (a : Addr) :
    Balanced 0 0 (fun D' => D') D (D.localSocketDestroy a) (Touches {a} D) := by
  refine (deref_balanced hD a).seq fun s _ hs => ?_
  refine (onLoop_balanced hD fun _ h => fdeventRemove_notFull h).seq fun D₁ h₁ hL => ?_
  obtain ⟨L, rfl⟩ := hL
  obtain ⟨os, -, heq⟩ := putApackets_eq s.pkts
    (({ D with loop := L } : Daemon).emit (.destroyed a s.queued))
  have hnote : Books 0 0 { D with loop := L }
      (({ D with loop := L } : Daemon).emit (.destroyed a s.queued)) := .quiet h₁.sane rfl
  have hputs := Books.putApackets hnote.sane s.pkts
  refine .after (hnote.trans hputs) (k := fun n => -(occurrences n s.pkts : ℤ)) (m := 0) ?_ ?_
    (le_refl _)
  · refine (removeSocket_balanced hputs.sane a).seq fun D₂ h₂ hremove => ?_
    obtain ⟨htr, s', i, hs', hsockets⟩ := hremove
    rw [heq] at hs' hsockets htr
    cases hs.symm.trans hs'
    have hself : D₂.sockets a = some { s with id := i } := by rw [hsockets, update_self]
    have hfree := Books.free h₂.sane hself
    have hrenamed : Touches {a} D D₂ := .update rfl hsockets htr
    have hfreed : Touches {a} D₂ (D₂.freeSocket a) := .update rfl rfl rfl
    dsimp only
    split
    · exact .error (by simp)
    · exact .ok hfree (hrenamed.trans hfreed)
  · funext n
    simp

lemma localSocketRetire_balanced (hD : D.Sane) (a : Addr) :
    Balanced 0 0 (fun D' => D') D (D.localSocketRetire a) (Touches {a} D) := by
  refine (deref_balanced hD a).seq fun s _ hs => ?_
  split
  · exact localSocketDestroy_balanced hD a
  · have hclosing := Books.assign hD hs { s with closing := true } rfl (.inr rfl) rfl rfl
    refine .next hclosing ?_
    refine (onLoop_balanced hclosing.sane fun _ h => fdeventDel_notFull h).seq fun D₁ h₁ hL => ?_
    obtain ⟨L, rfl⟩ := hL
    refine (removeSocket_balanced h₁.sane a).seq fun D₂ h₂ hremove => ?_
    obtain ⟨htr, s', i, hs', hsockets⟩ := hremove
    have hmarked : Touches {a} D { D.setSocket a { s with closing := true } with loop := L } :=
      .update rfl rfl rfl
    have hrenamed : Touches {a} { D.setSocket a { s with closing := true } with loop := L } D₂ :=
      .update rfl hsockets htr
    exact .ok (.quiet h₂.sane rfl) (hmarked.trans (hrenamed.trans (.of_eq rfl rfl)))

/-! ## The peer, and every kind of socket -/

section Kinds

variable {close : Addr → Daemon → Except Stop Daemon}
  (hclose : ∀ p q D, D.Sane → D.sockets p = some q →
    Balanced 0 q.dues (fun D' => D') D (close p D) (Touches (closes p q) D))

include hclose

/-- The peer, closed on its own, sends a packet only if it is a remote socket. -/
lemma closePeer_balanced (hD : D.Sane) (hs : D.sockets a = some s) :
    Balanced 0 s.peerDues (fun D' => D') D (D.closePeer close a) fun D' =>
      D'.sockets a = some s ∧ Touches {b | s.peer = some b} D D' ∧
        ∀ p, s.peer = some p → ∃ q, D.sockets p = some q := by
  rw [closePeer, deref_bind hs]
  cases hp : s.peer with
  | none =>
    exact .ok ((Books.refl hD).mono rfl (Nat.zero_le _)) ⟨hs, .refl D, fun p h => by cases h⟩
  | some p =>
    dsimp only
    refine (deref_balanced hD p).seq fun q _ hq => ?_
    have hkind : q.ops.isLocal = !s.ops.isLocal := (hD.typed a s p hs hp).2 q hq
    have hap : a ≠ p := by
      rintro rfl
      cases hs.symm.trans hq
      simp at hkind
    have hcut := Books.assign hD hq { q with peer := none } rfl (.inl rfl) rfl rfl
    have hself : (D.setSocket p { q with peer := none }).sockets p =
        some { q with peer := none } := setSocket_sockets_self ..
    have hcutTouches : Touches {b | some p = some b} D (D.setSocket p { q with peer := none }) :=
      .update rfl rfl rfl
    refine .next hcut ((hclose p _ _ hcut.sane hself).mono rfl ?_ fun D' h => ?_)
    · have hdues : ({ q with peer := none } : Asocket).dues =
          if q.ops = .remote then 1 else 0 := by
        simp [Asocket.dues, Asocket.peerDues]
      rw [hdues, Asocket.peerDues, hp]
      by_cases hops : q.ops = .remote
      · have hlocal : s.ops.isLocal = true := by
          rw [hops] at hkind
          simpa [SocketOps.isLocal] using hkind.symm
        rw [if_pos hops, if_pos hlocal, if_neg (by simp)]
      · rw [if_neg hops]
        exact Nat.zero_le _
    · have h' : Touches {b | some p = some b} D D' := by
        refine hcutTouches.trans (h.mono fun b hb => ?_)
        rcases hb with rfl | hb
        · rfl
        · cases hb
      refine ⟨?_, h', fun b hb => ⟨q, Option.some.inj hb ▸ hq⟩⟩
      rw [h'.sockets a fun h => hap (Option.some.inj h).symm, hs]

lemma localSocketCloseLocked_balanced (hD : D.Sane) (hs : D.sockets a = some s) :
    Balanced 0 s.peerDues (fun D' => D') D (D.localSocketCloseLocked close a)
      (Touches (closes a s) D) := by
  refine (closePeer_balanced hclose hD hs).bind 0 0 (fun D₁ h₁ hpeer => ?_) (add_zero _) (le_refl _)
  obtain ⟨hs₁, htouch, -⟩ := hpeer
  rw [deref_bind hs₁]
  have hcut := Books.assign h₁.sane hs₁ { s with peer := none } rfl (.inl rfl) rfl rfl
  have hcutTouches : Touches {a} D₁ (D₁.setSocket a { s with peer := none }) :=
    .update rfl rfl rfl
  refine .next hcut ((localSocketRetire_balanced hcut.sane a).mono rfl (le_refl _) fun D₂ h₂ => ?_)
  refine (htouch.mono fun b hb => .inr hb).trans ((hcutTouches.trans h₂).mono ?_)
  exact fun b hb => .inl hb

/-- `local_socket_close_notify` puts the plain functions back before it closes. -/
lemma localSocketCloseNotify_balanced (hD : D.Sane) (hs : D.sockets a = some s)
    (hops : s.ops = .fdNotify) :
    Balanced 0 s.peerDues (fun D' => D') D (D.localSocketCloseNotify close a)
      (Touches (closes a s) D) := by
  rw [localSocketCloseNotify, deref_bind hs]
  set D₁ := D.setSocket a { s with ops := .fd }
  have hfd : Books 0 0 D D₁ := by
    refine (Books.store hD hs { s with ops := .fd } (by rw [hops]; rfl)
      (fun p hp => hD.typed a s p hs hp) ?_).mono ?_ (le_refl _)
    · exact trivial
    · funext n
      exact sub_self _
  have hled := sendfailmsg_ledger a "closed" D₁
  have hsockets : (D₁.sendfailmsg a "closed").sockets = D₁.sockets :=
    congrArg Ledger.sockets hled
  have htr : (D₁.sendfailmsg a "closed").transports = D₁.transports :=
    congrArg Ledger.transports hled
  have hself : (D₁.sendfailmsg a "closed").sockets a = some { s with ops := .fd } := by
    rw [hsockets]
    exact setSocket_sockets_self ..
  have hfst : Touches (closes a s) D D₁ := .update (.inl rfl) rfl rfl
  have hbooks : Books 0 0 D (D₁.sendfailmsg a "closed") := hfd.of_ledger hled
  refine .next hbooks ((localSocketCloseLocked_balanced hclose hbooks.sane hself).mono rfl ?_
    fun D₂ h₂ => ?_)
  · rw [Asocket.peerDues, Asocket.peerDues, hops]
    exact le_refl _
  · exact (hfst.trans (.of_eq hsockets htr)).trans h₂

/-- A remote socket hands an `A_CLSE` on. -/
lemma remoteSocketClose_balanced (hD : D.Sane) (hs : D.sockets r = some s)
    (hops : s.ops = .remote) :
    Balanced 0 s.dues (fun D' => D') D (D.remoteSocketClose close r)
      (Touches (closes r s) D) := by
  obtain ⟨htr, hpkts⟩ : s.transport.isSome = true ∧ s.pkts = [] := by
    have hplain := hD.plain r s hs
    rw [Asocket.Plain, hops] at hplain
    exact hplain
  obtain ⟨t, ht⟩ := Option.isSome_iff_exists.mp htr
  rw [remoteSocketClose, deref_bind hs]
  have hget := Books.getApacket hD
  refine .after hget (k := Pi.single D.nextPacket 1) (m := s.dues) ?_ (single_cancel _)
    (Nat.zero_add _).le
  refine Balanced.seq (p := fun _ => D.getApacket.2) (Q := fun _ => True) ?_ fun id _ _ => ?_
  · cases s.peer with
    | none => exact .ok (.refl hget.sane) trivial
    | some a =>
      refine (deref_balanced hget.sane a).seq fun q _ _ => ?_
      exact .ok (.refl hget.sane) trivial
  refine (closePeer_balanced hclose hget.sane hs).bind (Pi.single D.nextPacket 1) 1
    (fun D₁ h₁ hpeer => ?_) (zero_add _) (by rw [Asocket.dues, hops]; exact le_refl _)
  obtain ⟨hs₁, htouch, -⟩ := hpeer
  rw [ht]
  refine (sendPacket_balanced h₁.sane (some r) _ t).bind 0 0 (fun D₂ h₂ hsend => ?_) (add_zero _)
    (le_refl _)
  refine (removeTransportDisconnect_balanced h₂.sane (some t) r).seq fun D₃ h₃ hrec => ?_
  have hs₃ : D₃.sockets r = some s := by
    rw [hrec.sockets r (Set.notMem_empty r), hsend.sockets r (Set.notMem_empty r), hs₁]
  refine .ok (.discard h₃.sane hs₃ hpkts) ?_
  have hstart : Touches (closes r s) D D.getApacket.2 := .of_eq rfl rfl
  have hfree : Touches (closes r s) D₃ (D₃.freeSocket r) := .update (.inl rfl) rfl rfl
  have hmid : Touches (closes r s) D.getApacket.2 D₁ := htouch.mono fun b hb => .inr hb
  have hend : Touches (closes r s) D₁ D₃ := (hsend.trans hrec).mono (Set.empty_subset _)
  exact hstart.trans (hmid.trans (hend.trans hfree))

lemma remoteSocketDisconnect_balanced (hD : D.Sane)
    (hops : ∀ s, D.sockets r = some s → s.ops = .remote) :
    Balanced 0 0 (fun D' => D') D (D.remoteSocketDisconnect close r) fun D' =>
      ∃ s, D.sockets r = some s ∧ D'.sockets r = none ∧ Touches (closes r s) D D' ∧
        ∀ p, s.peer = some p → ∃ q, D.sockets p = some q ∧ q.ops.isLocal = true := by
  refine (deref_balanced hD r).seq fun s _ hs => ?_
  have hplain := hD.plain r s hs
  rw [Asocket.Plain, hops s hs] at hplain
  have hfree : s.peerDues = 0 := by
    rw [Asocket.peerDues, hops s hs]
    rfl
  refine ((closePeer_balanced hclose hD hs).mono rfl hfree.le fun _ h => h).seq
    fun D₁ h₁ hpeer => ?_
  obtain ⟨hs₁, htouch, hpeer⟩ := hpeer
  refine (removeTransportDisconnect_balanced h₁.sane s.transport r).seq fun D₂ h₂ hrec => ?_
  have hs₂ : D₂.sockets r = some s := by
    rw [hrec.sockets r (Set.notMem_empty r), hs₁]
  refine .ok (.discard h₂.sane hs₂ hplain.2) ⟨s, hs, update_self .., ?_, fun p hp => ?_⟩
  · have hfree : Touches (closes r s) D₂ (D₂.freeSocket r) := .update (.inl rfl) rfl rfl
    have hfst : Touches (closes r s) D D₁ := htouch.mono fun b hb => .inr hb
    exact hfst.trans ((hrec.mono (Set.empty_subset _)).trans hfree)
  · obtain ⟨q, hq⟩ := hpeer p hp
    refine ⟨q, hq, ?_⟩
    rw [(hD.typed r s p hs hp).2 q hq, hops s hs]
    rfl

/-- A smart socket releases what it has collected. -/
lemma smartSocketClose_balanced (hD : D.Sane) (hs : D.sockets a = some s)
    (hops : s.ops = .smart) :
    Balanced 0 s.peerDues (fun D' => D') D (D.smartSocketClose close a)
      (Touches (closes a s) D) := by
  have htake : s.pkts.take 1 = s.pkts := by
    have hplain := hD.plain a s hs
    rw [Asocket.Plain, hops] at hplain
    exact List.take_of_length_le hplain
  rw [smartSocketClose, deref_bind hs, htake]
  have hputs := Books.putApackets hD s.pkts
  obtain ⟨os, -, heq⟩ := putApackets_eq s.pkts D
  have hs₀ : (D.putApackets s.pkts).sockets a = some s := by
    rw [heq]
    exact hs
  have hstart : Touches (closes a s) D (D.putApackets s.pkts) := by
    rw [heq]
    exact .of_eq rfl rfl
  refine .after hputs (k := fun n => -(occurrences n s.pkts : ℤ)) (m := s.peerDues) ?_ ?_
    (Nat.zero_add _).le
  · refine (closePeer_balanced hclose hputs.sane hs₀).bind
      (fun n => -(occurrences n s.pkts : ℤ)) 0 (fun D₁ h₁ hpeer => ?_) (zero_add _) (le_refl _)
    obtain ⟨hs₁, htouch, -⟩ := hpeer
    have hfree : Touches (closes a s) D₁ (D₁.freeSocket a) := .update (.inl rfl) rfl rfl
    exact .ok (.free h₁.sane hs₁) (hstart.trans ((htouch.mono fun b hb => .inr hb).trans hfree))
  · funext n
    simp

lemma jdwpSocketClose_balanced (hD : D.Sane) (hs : D.sockets a = some s)
    (hops : s.ops = .jdwp) :
    Balanced 0 s.peerDues (fun D' => D') D (D.jdwpSocketClose close a)
      (Touches (closes a s) D) := by
  have hplain := hD.plain a s hs
  rw [Asocket.Plain, hops] at hplain
  refine (removeSocket_balanced hD a).seq fun D₁ h₁ hremove => ?_
  obtain ⟨htr, s', i, hs', hsockets⟩ := hremove
  cases hs.symm.trans hs'
  have hs₁ : D₁.sockets a = some { s with id := i } := by rw [hsockets, update_self]
  have hfst : Touches (closes a s) D D₁ := .update (.inl rfl) hsockets htr
  refine (closePeer_balanced hclose h₁.sane hs₁).bind 0 0 (fun D₂ h₂ hpeer => ?_) (add_zero _)
    (le_refl _)
  obtain ⟨hs₂, htouch, -⟩ := hpeer
  have hfree : Touches (closes a s) D₂ (D₂.freeSocket a) := .update (.inl rfl) rfl rfl
  refine .ok (.discard h₂.sane hs₂ hplain) (hfst.trans (.trans (htouch.mono ?_) hfree))
  exact fun b hb => .inr hb

lemma jdwpTrackerClose_balanced (hD : D.Sane) (hs : D.sockets a = some s)
    (hops : s.ops = .tracker) :
    Balanced 0 s.peerDues (fun D' => D') D (D.jdwpTrackerClose close a)
      (Touches (closes a s) D) := by
  have hplain := hD.plain a s hs
  rw [Asocket.Plain, hops] at hplain
  refine (closePeer_balanced hclose hD hs).bind 0 0 (fun D₁ h₁ hpeer => ?_) (add_zero _)
    (le_refl _)
  obtain ⟨hs₁, htouch, -⟩ := hpeer
  refine (removeSocket_balanced h₁.sane a).seq fun D₂ h₂ hremove => ?_
  obtain ⟨htr, s', i, hs', hsockets⟩ := hremove
  cases hs₁.symm.trans hs'
  have hs₂ : D₂.sockets a = some { s with id := i } := by rw [hsockets, update_self]
  have hlinks : Balanced 0 0 (fun _ => D₂) D₂ (D₂.touchTrackers (neighbours a D₂.jdwpTrackersList))
      fun _ => True := by
    rw [touchTrackers]
    split
    · exact .ok (.refl h₂.sane) trivial
    · exact .error (by simp)
  refine hlinks.seq fun _ _ _ => ?_
  have hfst : Touches (closes a s) D D₁ := htouch.mono fun b hb => .inr hb
  have hsnd : Touches (closes a s) D₁ D₂ := .update (.inl rfl) hsockets htr
  have hfree : Touches (closes a s) D₂ (D₂.freeSocket a) := .update (.inl rfl) rfl rfl
  have hbooks := Books.discard h₂.sane hs₂ hplain
  exact .ok (hbooks.of_ledger rfl) (hfst.trans (hsnd.trans (hfree.trans (.of_eq rfl rfl))))

end Kinds

/-! ## The call through the pointer -/

lemma closeSocket_balanced (n : ℕ) (a : Addr) (s : Asocket) (D : Daemon) (hD : D.Sane)
    (hs : D.sockets a = some s) :
    Balanced 0 s.dues (fun D' => D') D (closeSocket n a D) (Touches (closes a s) D) := by
  induction n generalizing a s D with
  | zero => exact .error (by simp)
  | succ n ih =>
    rw [closeSocket, deref_bind hs]
    cases hops : s.ops with
    | remote => exact remoteSocketClose_balanced ih hD hs hops
    | fd =>
      rw [Asocket.dues_eq (by simp [hops])]
      exact localSocketCloseLocked_balanced ih hD hs
    | fdNotify =>
      rw [Asocket.dues_eq (by simp [hops])]
      exact localSocketCloseNotify_balanced ih hD hs hops
    | smart =>
      rw [Asocket.dues_eq (by simp [hops])]
      exact smartSocketClose_balanced ih hD hs hops
    | jdwp =>
      rw [Asocket.dues_eq (by simp [hops])]
      exact jdwpSocketClose_balanced ih hD hs hops
    | tracker =>
      rw [Asocket.dues_eq (by simp [hops])]
      exact jdwpTrackerClose_balanced ih hD hs hops

/-- A close sends at most one packet. -/
lemma close_balanced (hD : D.Sane) (a : Addr) :
    Balanced 0 1 (fun D' => D') D (D.close a) fun _ => True := by
  cases hs : D.sockets a with
  | none =>
    rw [close, closeSocket, deref, hs]
    exact .error (by simp)
  | some s => exact (closeSocket_balanced 2 a s D hD hs).mono rfl s.dues_le fun _ _ => trivial

/-- A smart socket without a peer sends nothing when it is closed. -/
lemma close_smart_balanced (hD : D.Sane) (hs : D.sockets a = some s) (hops : s.ops = .smart) :
    Balanced 0 0 (fun D' => D') D (D.close a) fun _ => True := by
  refine (closeSocket_balanced 2 a s D hD hs).mono rfl ?_ fun _ _ => trivial
  rw [Asocket.dues, Asocket.peerDues, hops]
  exact le_refl _

/-! ## Closing by transport -/

/-- `close_all_sockets` of an `input_thread`, which may send a packet for each socket. -/
lemma closeAllFuel_balanced (hD : D.Sane) (t : TAddr) (fuel : ℕ) :
    Balanced 0 fuel (fun D' => D') D (D.closeAllFuel t fuel) fun _ => True := by
  induction fuel generalizing D with
  | zero => exact .error (by simp)
  | succ fuel ih =>
    rw [closeAllFuel]
    split
    · exact .ok ((Books.refl hD).mono rfl (Nat.zero_le _)) trivial
    case h_2 a ha =>
      have hbound : D.boundTo t a = true := List.find?_some (p := D.boundTo t) ha
      obtain ⟨s, hs, -⟩ := (Option.any_eq_true _ _).mp hbound
      refine (localSocketCloseLocked_balanced (closeSocket_balanced 1) hD hs).bind 0 fuel
        (fun D₁ h₁ _ => ih h₁.sane) (zero_add _) ?_
      have := s.peerDues_le
      omega

/-- The disconnect records of `t` are those of remote sockets. -/
def Recorded (t : TAddr) (D : Daemon) : Prop :=
  ∀ x r s, D.transports t = some x → r ∈ x.disconnects → D.sockets r = some s → s.ops = .remote

lemma nextDisconnect_mem {l : List Addr} (h : nextDisconnect r l = some a) : a ∈ l := by
  have hmem := List.mem_of_head? h
  exact (List.dropWhile_sublist _).subset (List.mem_of_mem_drop hmem)

/-- The remote sockets are freed without a word to the other side. -/
lemma runDisconnects_balanced (hD : D.Sane) (hrec : Recorded t D) {next : Option Addr}
    (hnext : ∀ r s, next = some r → D.sockets r = some s → s.ops = .remote) :
    Balanced 0 0 (fun D' => D') D (D.runDisconnects t fuel next) fun _ => True := by
  induction fuel generalizing D next with
  | zero =>
    cases next with
    | none => exact .ok (.refl hD) trivial
    | some r => exact .error (by simp)
  | succ fuel ih =>
    cases next with
    | none => exact .ok (.refl hD) trivial
    | some r =>
      refine (derefT_balanced hD t).seq fun x _ hx => ?_
      refine (remoteSocketDisconnect_balanced (closeSocket_balanced 1) hD
        fun s hs => hnext r s rfl hs).seq fun D₁ h₁ hdone => ?_
      obtain ⟨s, hs, hfreed, htouch, hpeer⟩ := hdone
      -- a record that is left is that of a remote socket nothing was done to
      have hleft : ∀ b q, b ∈ x.disconnects → D₁.sockets b = some q → q.ops = .remote := by
        intro b q hb hq
        by_cases hbr : b = r
        · rw [hbr, hfreed] at hq
          cases hq
        by_cases hbp : s.peer = some b
        · obtain ⟨u, hu, hlocal⟩ := hpeer b hbp
          rw [hrec x b u hx hb hu] at hlocal
          cases hlocal
        · rw [htouch.sockets b fun h => h.elim hbr hbp] at hq
          exact hrec x b q hx hb hq
      refine ih h₁.sane (fun x' b q hx' hb hq => ?_) fun b q hb hq => ?_
      · obtain ⟨y, hy, hsub⟩ := htouch.records t x' hx'
        cases hx.symm.trans hy
        exact hleft b q (hsub hb) hq
      · exact hleft b q (nextDisconnect_mem hb) hq

lemma runTransportDisconnects_balanced (hD : D.Sane) (hrec : Recorded t D) :
    Balanced 0 0 (fun D' => D') D (D.runTransportDisconnects t) fun _ => True := by
  refine (derefT_balanced hD t).seq fun x _ hx => ?_
  exact runDisconnects_balanced hD hrec fun r s hr hs =>
    hrec x r s hx (List.mem_of_head? hr) hs

end Daemon

end Adbd
