import Adbd.Effects.Closing
import Adbd.Properties.PeerLinks

/-!
# `close_all_sockets`

The walk over `local_socket_list` starts again after every close.  Each close takes one socket off
the list, the first that is bound to the transport, and its peer out of the heap; what the other
sockets are bound to stays as it was, so that the walk finds the sockets that were bound when it
began, one after the other, and ends.
-/

namespace Adbd

open Function Transition

namespace Daemon

variable {D D' : Daemon} {a b : Addr} {s : Asocket} {t : TAddr}

/-! ## The property -/

/-- The socket has packets queued for its descriptor. -/
def hasQueue (a : Addr) (D : Daemon) : Bool := (D.sockets a).any fun s => !s.pkts.isEmpty

/-- Whether `close_all_sockets` finds the socket. -/
def Affected (t : TAddr) (D : Daemon) (a : Addr) : Prop :=
  a ∈ D.localSocketList ∧ D.boundTo t a = true

/-- All sockets bound to `t` are closed, and nothing else has happened to any socket. -/
structure AllClosed (t : TAddr) (D D' : Daemon) : Prop where
  graph : Graph ∅ D'
  /-- What is left in the list is in its order. -/
  list : D'.localSocketList = D.localSocketList.filter fun a => !D.boundTo t a
  unbound : ∀ a ∈ D'.localSocketList, D'.boundTo t a = false
  /-- Who had packets queued is now flushing, in the same order. -/
  closing : D'.localSocketClosingList = D.localSocketClosingList ++
    D.localSocketList.filter fun a => D.boundTo t a && D.hasQueue a
  closed : ∀ a s, Affected t D a → D.sockets a = some s → D'.sockets a =
    if s.pkts.isEmpty then none else some { s with peer := none, closing := true, id := 0 }
  peers : ∀ a s p, Affected t D a → D.sockets a = some s → s.peer = some p → D'.sockets p = none
  remotes : ∀ r q a, D.sockets r = some q → q.transport = some t → q.peer = some a →
    a ∈ D.localSocketList → D'.sockets r = none
  others : ∀ b, ¬Affected t D b →
    (∀ a s, Affected t D a → D.sockets a = some s → s.peer ≠ some b) → D'.sockets b = D.sockets b

/-- Why `close_all_sockets` may not return: a socket it closes ends the daemon, or something
fails that does. -/
def CloseAllEnds (t : TAddr) (D : Daemon) (e : Stop) : Prop :=
  (∃ a s, Affected t D a ∧ D.sockets a = some s ∧ s.exitOnClose = true ∧ e = .exitOnClose a) ∨
  IsFatal e ∧ ¬Good D.localSocketList.length D

/-! ## One close -/

/-- What a listed socket is bound to does not change when another one is closed. -/
lemma LocalClosed.kept (hc : LocalClosed D a s D') (h : Graph ∅ D) (hs : D.sockets a = some s)
    (hb : b ∈ D'.localSocketList) : b ≠ a ∧ b ∈ D.localSocketList ∧
      D'.sockets b = D.sockets b ∧
      ∀ q p, D.sockets b = some q → q.peer = some p → D'.sockets p = D.sockets p := by
  have hlist := hb
  rw [hc.list, h.listNodup.mem_erase_iff] at hlist
  obtain ⟨hba, hmem⟩ := hlist
  obtain ⟨q', hq', -⟩ := hc.graph.listed b hb
  have hpeer : s.peer ≠ some b := by
    intro hp
    rw [hc.peer b hp] at hq'
    cases hq'
  refine ⟨hba, hmem, hc.others b hba hpeer, ?_⟩
  intro q p hq hp
  obtain ⟨-, q₁, hq₁, hback, -⟩ := h.paired b q p (Set.notMem_empty b) hq hp
  apply hc.others p
  · rintro rfl
    cases hs.symm.trans hq₁
    exact hpeer hback
  · intro hsp
    obtain ⟨-, q₂, hq₂, hback₂, -⟩ := h.paired a s p (Set.notMem_empty a) hs hsp
    cases hq₁.symm.trans hq₂
    rw [hback, Option.some.injEq] at hback₂
    exact hba hback₂

lemma boundTo_congr (hb : D'.sockets b = D.sockets b)
    (hpeer : ∀ q p, D.sockets b = some q → q.peer = some p → D'.sockets p = D.sockets p) :
    D'.boundTo t b = D.boundTo t b := by
  rw [boundTo, boundTo, hb]
  cases hq : D.sockets b with
  | none => rfl
  | some q =>
    rw [Option.any_some, Option.any_some]
    cases hp : q.peer with
    | none => rfl
    | some p => rw [Option.any_some, Option.any_some, hpeer q p hq hp]

lemma LocalClosed.boundTo (hc : LocalClosed D a s D') (h : Graph ∅ D)
    (hs : D.sockets a = some s) (hb : b ∈ D'.localSocketList) :
    D'.boundTo t b = D.boundTo t b :=
  boundTo_congr (hc.kept h hs hb).2.2.1 (hc.kept h hs hb).2.2.2

/-! ## The walk -/

/-- The peer of a remote socket of the transport is bound to it. -/
lemma affected_of_remote (h : Graph ∅ D) {r : Addr} {q : Asocket} (hr : D.sockets r = some q)
    (ht : q.transport = some t) (hp : q.peer = some a) (ha : a ∈ D.localSocketList) :
    Affected t D a ∧ ∃ s, D.sockets a = some s ∧ s.peer = some r := by
  obtain ⟨-, s, hs, hback, -⟩ := h.paired r q a (Set.notMem_empty r) hr hp
  refine ⟨⟨ha, ?_⟩, s, hs, hback⟩
  rw [boundTo, hs, Option.any_some, hback, Option.any_some, hr, Option.any_some, ht]
  simp

/-- Nothing is bound to the transport. -/
lemma AllClosed.refl (h : Graph ∅ D) (hnone : ∀ a ∈ D.localSocketList, D.boundTo t a = false) :
    AllClosed t D D := by
  have hno : ∀ a, ¬Affected t D a := by
    rintro a ⟨ha, hbound⟩
    rw [hnone a ha] at hbound
    cases hbound
  refine ⟨h, ?_, hnone, ?_, ?_, ?_, ?_, fun _ _ _ => rfl⟩
  · symm
    rw [List.filter_eq_self]
    intro a ha
    rw [hnone a ha]
    rfl
  · have hnil : (D.localSocketList.filter fun a => D.boundTo t a && D.hasQueue a) = [] := by
      rw [List.filter_eq_nil_iff]
      intro a ha
      rw [hnone a ha, Bool.false_and]
      exact Bool.false_ne_true
    rw [hnil, List.append_nil]
  · exact fun a s ha => absurd ha (hno a)
  · exact fun a s p ha => absurd ha (hno a)
  · intro r q a hr ht hp ha
    exact absurd (affected_of_remote h hr ht hp ha).1 (hno a)

/-- A socket that is gone stays away. -/
lemma AllClosed.dead (hall : AllClosed t D D') (h : Graph ∅ D) (hb : D.sockets b = none) :
    D'.sockets b = none := by
  rw [hall.others b ?_ ?_, hb]
  · rintro ⟨hmem, -⟩
    obtain ⟨q, hq, -⟩ := h.listed b hmem
    rw [hb] at hq
    cases hq
  · intro a s _ hs hp
    obtain ⟨-, q, hq, -⟩ := h.paired a s b (Set.notMem_empty a) hs hp
    rw [hb] at hq
    cases hq

/-- One close, and the walk from the start again. -/
lemma AllClosed.step {D₁ : Daemon} (hall : AllClosed t D₁ D') (h : Graph ∅ D)
    (hs : D.sockets a = some s) (hc : LocalClosed D a s D₁) {before after : List Addr}
    (hl : D.localSocketList = before ++ a :: after) (hbound : D.boundTo t a = true)
    (hbefore : ∀ b ∈ before, D.boundTo t b = false) : AllClosed t D D' := by
  have hmem : a ∈ D.localSocketList := by
    rw [hl]
    simp
  have haff : Affected t D a := ⟨hmem, hbound⟩
  have hl₁ : D₁.localSocketList = before ++ after := by
    have hnodup := h.listNodup
    rw [hl] at hnodup
    have hnot : a ∉ before := fun hmem => (List.nodup_append.mp hnodup).2.2 a hmem a (by simp) rfl
    rw [hc.list, hl, List.erase_append_right _ hnot, List.erase_cons_head]
  have hsame : ∀ b ∈ D₁.localSocketList, D₁.boundTo t b = D.boundTo t b ∧
      D₁.hasQueue b = D.hasQueue b := by
    intro b hb
    refine ⟨hc.boundTo h hs hb, ?_⟩
    rw [hasQueue, hasQueue, (hc.kept h hs hb).2.2.1]
  have hback : ∀ b, Affected t D₁ b → Affected t D b ∧ D₁.sockets b = D.sockets b := by
    rintro b ⟨hb, hbt⟩
    obtain ⟨-, hmem', hsock, -⟩ := hc.kept h hs hb
    exact ⟨⟨hmem', (hsame b hb).1 ▸ hbt⟩, hsock⟩
  have hforth : ∀ b, b ≠ a → Affected t D b → Affected t D₁ b ∧ D₁.sockets b = D.sockets b := by
    rintro b hba ⟨hb, hbt⟩
    have hb₁ : b ∈ D₁.localSocketList := by
      rw [hc.list]
      exact (List.mem_erase_of_ne hba).mpr hb
    exact ⟨⟨hb₁, (hsame b hb₁).1.trans hbt⟩, (hc.kept h hs hb₁).2.2.1⟩
  have hpeers : ∀ b q p, Affected t D b → D.sockets b = some q → q.peer = some p →
      D'.sockets p = none := by
    intro b q p hb hq hp
    by_cases hba : b = a
    · subst hba
      cases hs.symm.trans hq
      exact hall.dead hc.graph (hc.peer p hp)
    · obtain ⟨hb₁, hsock⟩ := hforth b hba hb
      exact hall.peers b q p hb₁ (hsock.trans hq) hp
  have hself : D'.sockets a =
      if s.pkts.isEmpty then none else some { s with peer := none, closing := true, id := 0 } := by
    obtain ⟨s', hs', hclosing, -⟩ := h.listed a hmem
    cases hs.symm.trans hs'
    have hleft : D₁.sockets a =
        if s.pkts.isEmpty then none
        else some { s with peer := none, closing := true, id := 0 } := by
      rw [hc.self, remains, hclosing, Bool.false_or]
    split at hleft
    case isTrue hempty => rw [hall.dead hc.graph hleft, if_pos hempty]
    case isFalse hqueue =>
      rw [if_neg hqueue, hall.others a ?_ ?_, hleft]
      · rintro ⟨hmem₁, -⟩
        rw [hc.list] at hmem₁
        exact h.listNodup.not_mem_erase hmem₁
      · intro b q _ hq hp
        obtain ⟨-, z, hz, hback, -⟩ := hc.graph.paired b q a (Set.notMem_empty b) hq hp
        cases hleft.symm.trans hz
        cases hback
  refine ⟨hall.graph, ?_, hall.unbound, ?_, ?_, hpeers, ?_, ?_⟩
  · rw [hall.list, List.filter_congr fun b hb => by rw [(hsame b hb).1], hl₁, hl]
    rw [List.filter_append, List.filter_append, List.filter_cons_of_neg (by simp [hbound])]
  · have hnil : (before.filter fun b => D.boundTo t b && D.hasQueue b) = [] := by
      rw [List.filter_eq_nil_iff]
      intro b hb
      rw [hbefore b hb, Bool.false_and]
      exact Bool.false_ne_true
    rw [hall.closing, hc.closing,
      List.filter_congr fun b hb => by rw [(hsame b hb).1, (hsame b hb).2], hl₁, hl,
      List.filter_append, List.filter_append, hnil, List.filter_cons, hbound, Bool.true_and,
      hasQueue, hs, Option.any_some]
    cases s.pkts.isEmpty <;> simp
  · intro b q hb hq
    by_cases hba : b = a
    · subst hba
      cases hs.symm.trans hq
      exact hself
    · obtain ⟨hb₁, hsock⟩ := hforth b hba hb
      exact hall.closed b q hb₁ (hsock.trans hq)
  · intro r q b hr ht hp hb
    obtain ⟨hb', q', hq', hback'⟩ := affected_of_remote h hr ht hp hb
    exact hpeers b q' r hb' hq' hback'
  · intro b hno hpeer
    have hba : b ≠ a := fun heq => hno (heq ▸ haff)
    rw [hall.others b (fun hb => hno (hback b hb).1) ?_, hc.others b hba (hpeer a s haff hs)]
    intro b' q hb' hq
    obtain ⟨hb, hsock⟩ := hback b' hb'
    exact hpeer b' q hb (hsock.symm.trans hq)

/-- The bound sockets that are left end the daemon for a reason that was there before. -/
lemma CloseAllEnds.step {D₁ : Daemon} {e : Stop} (he : CloseAllEnds t D₁ e) (h : Graph ∅ D)
    (hs : D.sockets a = some s) (ha : a ∈ D.localSocketList) (hc : LocalClosed D a s D₁) :
    CloseAllEnds t D e := by
  rcases he with ⟨b, q, ⟨hb, hbt⟩, hq, hexit, rfl⟩ | ⟨hfatal, hno⟩
  · obtain ⟨-, hmem, hsock, -⟩ := hc.kept h hs hb
    exact Or.inl ⟨b, q, ⟨hmem, (hc.boundTo h hs hb).symm.trans hbt⟩, hsock.symm.trans hq, hexit,
      rfl⟩
  · refine Or.inr ⟨hfatal, fun hgood => hno (hc.good _ ?_)⟩
    have hlen := List.length_pos_of_mem ha
    rw [hc.list, List.length_erase_of_mem ha, Nat.sub_add_cancel hlen]
    exact hgood

/-- The walk ends, since every close makes the list shorter. -/
lemma closeAllFuel_outcome (fuel : ℕ) (h : Graph ∅ D) (hfuel : D.localSocketList.length < fuel) :
    Outcome (D.closeAllFuel t fuel) (AllClosed t D) (CloseAllEnds t D) := by
  induction fuel generalizing D with
  | zero => omega
  | succ fuel ih =>
    rw [closeAllFuel]
    cases hfind : D.localSocketList.find? fun a => D.boundTo t a with
    | none =>
      apply AllClosed.refl h
      intro a ha
      rw [← Bool.not_eq_true]
      exact List.find?_eq_none.mp hfind a ha
    | some a =>
      obtain ⟨hbound, before, after, hl, hbefore⟩ := List.find?_eq_some_iff_append.mp hfind
      have ha : a ∈ D.localSocketList := List.mem_of_find?_eq_some hfind
      obtain ⟨s, hs, -⟩ := h.listed a ha
      have hclose := localSocketCloseLocked_outcome h ha hs
      show Outcome (D.localSocketCloseLocked (closeSocket 1) a >>= _) _ _
      cases hD₁ : D.localSocketCloseLocked (closeSocket 1) a with
      | error e =>
        rcases hclose.stop hD₁ with ⟨rfl, hexit⟩ | ⟨hfatal, hno⟩
        · exact Or.inl ⟨a, s, ⟨ha, hbound⟩, hs, hexit, rfl⟩
        · exact Or.inr ⟨hfatal, fun hgood => hno (hgood.mono (List.length_pos_of_mem ha))⟩
      | ok D₁ =>
        have hc := hclose.success hD₁
        have hlen : D₁.localSocketList.length < fuel := by
          have hpos := List.length_pos_of_mem ha
          rw [hc.list, List.length_erase_of_mem ha]
          omega
        have hrest := ih hc.graph hlen
        show Outcome (D₁.closeAllFuel t fuel) _ _
        cases hD' : D₁.closeAllFuel t fuel with
        | error e => exact (hrest.stop hD').step h hs ha hc
        | ok D' =>
          refine (hrest.success hD').step h hs hc hl hbound ?_
          intro b hb
          rw [← Bool.not_eq_true']
          exact hbefore b hb

/-- The sockets of every reachable state are in order. -/
lemma Reachable.graph (h : Reachable D) : Graph ∅ D := h.wf.peers

end Daemon

end Adbd
