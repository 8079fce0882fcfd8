import Adbd.Accounts.Packet

/-!
# Accounts: steps

A callback of the main loop is balanced, but for the packet it may take off the queue of a
transport first.  The threads of a transport only move packets: `output_thread` asks for one and
writes it to the main loop or releases it, `input_thread` reads one and releases it.
-/

namespace Adbd

open Function Transition FlagWord

namespace Daemon

variable {D D' : Daemon} {t : TAddr} {x : Atransport} {p : Apacket}

/-! ## Registration -/

lemma transportSocketpair_balanced (hD : D.Sane) (t : TAddr) :
    Balanced 0 0 Prod.snd D (D.transportSocketpair t) fun y =>
      y.2.transports = D.transports := by
  rw [transportSocketpair]
  refine (takeFd_balanced hD _).seq fun y h₁ hy => ?_
  obtain ⟨fst, D₁⟩ := y
  obtain ⟨L, O, I, rfl⟩ := hy
  refine (takeFd_balanced h₁.sane _).seq fun z h₂ hz => ?_
  obtain ⟨snd, D₂⟩ := z
  obtain ⟨M, P, J, rfl⟩ := hz
  dsimp only at h₂ ⊢
  split
  · exact .ok (.refl h₂.sane) rfl
  · exact .error (by simp)

lemma startTransport_balanced (hD : D.Sane) (t : TAddr) :
    Balanced 0 0 (fun D' => D') D (D.startTransport t) fun _ => True := by
  refine (derefT_balanced hD t).seq fun x _ hx => ?_
  refine Balanced.seq (p := fun D' => D') (Q := fun _ => True) ?_ fun D₁ h₁ _ => ?_
  · split
    · refine (transportSocketpair_balanced hD t).seq fun y h₁ hy => ?_
      obtain ⟨⟨n, m⟩, D₁⟩ := y
      dsimp only at h₁ hy ⊢
      have hx₁ : D₁.transports t = some x := by
        rw [hy]
        exact hx
      have hset : Books 0 0 D₁ (D₁.setTransport t { x with
          refCount := 2
          transportSocket := n
          fd := m
          input := .reading
          output := .start }) := .setTransport h₁.sane hx₁ (by rfl) (by rfl)
      refine .next hset ((onLoop_balanced hset.sane fun _ h => fdeventInstall_notFull h).seq
        fun D₂ h₂ _ => ?_)
      exact (onLoop_balanced h₂.sane fun _ h => fdeventSet_notFull h).mono rfl (le_refl _)
        fun _ _ => trivial
    · exact .ok (.refl hD) trivial
  refine (modifyT_balanced' h₁.sane t fun _ => by exact ⟨rfl, rfl⟩).seq fun D₂ h₂ _ => ?_
  exact .ok (.quiet h₂.sane rfl) trivial

lemma removeTransport_balanced (hD : D.Sane) (hrec : Recorded t D) :
    Balanced 0 0 (fun D' => D') D (D.removeTransport t) fun _ => True := by
  refine (derefT_balanced hD t).seq fun x _ hx => ?_
  dsimp only
  set D₁ : Daemon := if has (D.loop.mem (.transport t)).state fdeActive then
      D.emit (.shut (.transportSocket t) (D.loop.mem (.transport t)).fd
        (D.holds (D.loop.mem (.transport t)).fd (.transportSocket t)))
    else D with hD₁
  have hsame : D₁.ledger = D.ledger := by
    rw [hD₁]
    split
    · rfl
    · rfl
  have hnote : Books 0 0 D D₁ := .quiet hD hsame
  refine .next hnote ((onLoop_balanced hnote.sane fun _ h => fdeventRemove_notFull h).seq
    fun D₂ h₂ hL => ?_)
  obtain ⟨L, rfl⟩ := hL
  set D₃ : Daemon := { ({ D₁ with loop := L } : Daemon).shut (.transportFd t) x.fd with
    transportList := (({ D₁ with loop := L } : Daemon).shut (.transportFd t)
      x.fd).transportList.erase t }
  have hshut : Books 0 0 { D₁ with loop := L } D₃ := .quiet h₂.sane rfl
  have hrec₃ : Recorded t D₃ := by
    intro y r s hy hr hs
    have htr : D₁.transports = D.transports := congrArg Ledger.transports hsame
    have hsockets : D₁.sockets = D.sockets := congrArg Ledger.sockets hsame
    refine hrec y r s ?_ hr ?_
    · rw [← htr]
      exact hy
    · rw [← hsockets]
      exact hs
  refine .next hshut ((runTransportDisconnects_balanced hshut.sane hrec₃).seq fun D₄ h₄ _ => ?_)
  exact .ok (.freeTransport h₄.sane t) trivial

lemma transportRegistrationFunc_balanced (hD : D.Sane) (hrec : ∀ t, Recorded t D)
    (ev : BitVec 16) :
    Balanced 0 0 (fun D' => D') D (D.transportRegistrationFunc ev) fun _ => True := by
  rw [transportRegistrationFunc]
  split
  case isFalse => exact .ok (.refl hD) trivial
  split
  · exact .error (by simp)
  case h_2 t rest _ =>
    have hnote : Books 0 0 D
        (({ D with registration := rest } : Daemon).emit (.fetched t .register)) := .quiet hD rfl
    exact .next hnote (startTransport_balanced hnote.sane t)
  case h_3 t rest _ =>
    have hnote : Books 0 0 D
        (({ D with registration := rest } : Daemon).emit (.fetched t .remove)) := .quiet hD rfl
    exact .next hnote (removeTransport_balanced hnote.sane (hrec t))

/-! ## Callbacks -/

/-- The state in which the first packet of `t` has been read. -/
def pop (t : TAddr) (x : Atransport) (rest : List Apacket) (D : Daemon) : Daemon :=
  D.setTransport t { x with toMain := rest }

lemma pop_books (hD : D.Sane) (hx : D.transports t = some x) {rest : List Apacket}
    (hp : x.toMain = p :: rest) : Books 0 0 D (D.pop t x rest) := by
  refine Books.assignT hD hx (fun n => ?_) rfl
  rw [hp, occurrences, occurrences, List.countP_cons]
  exact Nat.le_add_right _ _

/-- The packet is not on its way any more. -/
lemma pop_incoming (hD : D.Sane) (hx : D.transports t = some x) {rest : List Apacket}
    (hp : x.toMain = p :: rest) (n : ℕ) :
    (D.pop t x rest).incoming n + occurrences n [p] = D.incoming n := by
  have h := Heap.total_update (w := fun x : Atransport => occurrences n x.toMain)
    (S := D.transports) (hD.freshT t x hx) (some { x with toMain := rest })
  rw [hx] at h
  have h' : (D.pop t x rest).incoming n + occurrences n x.toMain =
      D.incoming n + occurrences n rest := h
  have hcons : occurrences n x.toMain = occurrences n [p] + occurrences n rest := by
    rw [hp]
    exact occurrences_append n [p] rest
  omega

/-! ## The threads of a transport -/

lemma kick_balanced (hD : D.Sane) (t : TAddr) :
    Balanced 0 0 (fun D' => D') D (D.kick t) fun _ => True := by
  refine (derefT_balanced hD t).seq fun x _ hx => ?_
  have hnote : Books 0 0 D (D.emit (.kick t)) := .quiet hD rfl
  dsimp only
  split
  case h_1 n _ _ =>
    have hset : Books 0 0 (D.emit (.kick t))
        ((D.emit (.kick t)).setTransport t { x with sfd := none }) :=
      .setTransport hnote.sane hx rfl rfl
    refine .next hnote (.next hset (.ok (.quiet hset.sane ?_) trivial))
    rfl
  · exact .ok hnote trivial

lemma closeTransport_balanced (hD : D.Sane) (t : TAddr) :
    Balanced 0 0 (fun D' => D') D (D.closeTransport t) fun _ => True := by
  refine (derefT_balanced hD t).seq fun x _ _ => ?_
  dsimp only
  split
  · exact .ok (.quiet hD rfl) trivial
  · exact .ok (.quiet hD rfl) trivial

lemma transportUnref_balanced (hD : D.Sane) (t : TAddr) :
    Balanced 0 0 (fun D' => D') D (D.transportUnref t) fun _ => True := by
  refine (derefT_balanced hD t).seq fun x _ hx => ?_
  have hset : Books 0 0 D (D.setTransport t { x with refCount := x.refCount - 1 }) :=
    .setTransport hD hx rfl rfl
  refine .next hset ?_
  split
  · have hkick : Balanced 0 0 (fun D' => D')
        (D.setTransport t { x with refCount := x.refCount - 1 })
        (if x.kicked then pure (D.setTransport t { x with refCount := x.refCount - 1 }) else do
          let D ← (D.setTransport t { x with refCount := x.refCount - 1 }).modifyT t
            fun x => { x with kicked := true }
          D.kick t) fun _ => True := by
      split
      · exact .ok (.refl hset.sane) trivial
      · refine (modifyT_balanced' hset.sane t fun _ => by exact ⟨rfl, rfl⟩).seq fun D₁ h₁ _ => ?_
        exact kick_balanced h₁.sane t
    refine hkick.seq fun D₁ h₁ _ => ?_
    refine (closeTransport_balanced h₁.sane t).seq fun D₂ h₂ _ => ?_
    exact .ok (.quiet h₂.sane rfl) trivial
  · exact .ok (.refl hset.sane) trivial

lemma setOutput_balanced (hD : D.Sane) (t : TAddr) (pc : OutputPc) :
    Balanced 0 0 (fun D' => D') D (D.setOutput t pc) fun _ => True :=
  modifyT_balanced' hD t fun _ => ⟨rfl, rfl⟩

lemma setInput_balanced (hD : D.Sane) (t : TAddr) (pc : InputPc) :
    Balanced 0 0 (fun D' => D') D (D.setInput t pc) fun _ => True :=
  modifyT_balanced' hD t fun _ => ⟨rfl, rfl⟩

end Daemon

end Adbd
