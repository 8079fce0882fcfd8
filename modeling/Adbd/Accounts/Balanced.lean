import Adbd.Accounts.Basic

/-!
# The judgement of the accounts

`Balanced g c p D x Q` says of a part `x` of a step from `D`: if it succeeds with `b`, the books of
`D` and of the state `p b` agree up to `g`, at most `c` packets went to any transport, and `b`
satisfies `Q`; if it stops, that is not because of a queue with `c` free places.  The rules follow
the `do` blocks of the model.
-/

namespace Adbd

open Function Transition

universe u

/-- The daemon did not stop because a queue was full, if each had `c` free places. -/
def NotFull (c : ℕ) (D : Daemon) (r : Stop) : Prop := D.Room c → ∀ t, r ≠ .queueFull t

/-- The accounts of a part of a step. -/
def Balanced {β : Type u} (g : ℕ → ℤ) (c : ℕ) (p : β → Daemon) (D : Daemon) (x : Except Stop β)
    (Q : β → Prop) : Prop :=
  Outcome x (fun b => Books g c D (p b) ∧ Q b) (NotFull c D)

namespace Balanced

variable {β γ : Type u} {g k G : ℕ → ℤ} {c m C : ℕ} {p : β → Daemon} {q : γ → Daemon}
  {D D₁ : Daemon} {x : Except Stop β} {Q P : β → Prop} {R : γ → Prop}

lemma ok {b : β} (h : Books g c D (p b)) (hQ : Q b) : Balanced g c p D (.ok b) Q := ⟨h, hQ⟩

lemma error {r : Stop} (h : ∀ t, r ≠ .queueFull t) : Balanced g c p D (.error r) Q := fun _ => h

lemma mono (hx : Balanced g c p D x Q) (hg : g = G) (hc : c ≤ C) (hQ : ∀ b, Q b → P b) :
    Balanced G C p D x P := by
  cases x with
  | error r =>
    intro hroom
    refine hx fun t y n hy hn => ?_
    have := hroom t y n hy hn
    omega
  | ok b => exact ⟨hx.1.mono hg hc, hQ b hx.2⟩

/-- A change made before. -/
lemma after (h : Books g c D D₁) (hx : Balanced k m p D₁ x Q) (hg : g + k = G)
    (hc : c + m ≤ C) : Balanced G C p D x Q := by
  refine Balanced.mono (g := g + k) (c := c + m) ?_ hg hc fun _ hQ => hQ
  cases x with
  | error r => exact fun hroom => hx (h.room hroom)
  | ok b => exact ⟨h.trans hx.1, hx.2⟩

/-- A change made before that costs nothing. -/
lemma next (h : Books 0 0 D D₁) (hx : Balanced g c p D₁ x Q) : Balanced g c p D x Q :=
  after h hx (zero_add g) (Nat.zero_add c).le

/-- Chaining along `do`: `k` and `m` are left for the second half. -/
lemma bind {f : β → Except Stop γ} (hx : Balanced g c p D x Q) (k : ℕ → ℤ) (m : ℕ)
    (hf : ∀ b, Books g c D (p b) → Q b → Balanced k m q (p b) (f b) R) (hg : g + k = G)
    (hc : c + m ≤ C) : Balanced G C q D (x >>= f) R := by
  cases x with
  | error r =>
    intro hroom
    refine hx fun t y n hy hn => ?_
    have := hroom t y n hy hn
    omega
  | ok b => exact after hx.1 (hf b hx.1 hx.2) hg hc

/-- Chaining along `do` where the first half costs nothing. -/
lemma seq {f : β → Except Stop γ} (hx : Balanced 0 0 p D x Q)
    (hf : ∀ b, Books 0 0 D (p b) → Q b → Balanced g c q (p b) (f b) R) :
    Balanced g c q D (x >>= f) R :=
  bind hx g c hf (zero_add g) (Nat.zero_add c).le

lemma books (hx : Balanced g c p D x Q) {b : β} (h : x = .ok b) : Books g c D (p b) :=
  (Outcome.success hx h).1

lemma post (hx : Balanced g c p D x Q) {b : β} (h : x = .ok b) : Q b :=
  (Outcome.success hx h).2

end Balanced

/-! ## What is left alone -/

/-- Only sockets of `X` are assigned to or freed, and there is no new disconnect record. -/
structure Touches (X : Set Addr) (D D' : Daemon) : Prop where
  sockets : ∀ b, b ∉ X → D'.sockets b = D.sockets b
  records : ∀ t x', D'.transports t = some x' →
    ∃ x, D.transports t = some x ∧ x'.disconnects ⊆ x.disconnects

namespace Touches

variable {X Y : Set Addr} {D D' D'' : Daemon} {a : Addr} {o : Option Asocket} {t : TAddr}
  {x y : Atransport}

lemma of_eq (hsockets : D'.sockets = D.sockets) (htr : D'.transports = D.transports) :
    Touches X D D' :=
  ⟨fun b _ => congrFun hsockets b, fun _ x' hx' => ⟨x', htr ▸ hx', List.Subset.refl _⟩⟩

lemma refl (D : Daemon) : Touches X D D := of_eq rfl rfl

lemma trans (h : Touches X D D') (h' : Touches X D' D'') : Touches X D D'' := by
  refine ⟨fun b hb => (h'.sockets b hb).trans (h.sockets b hb), fun t x'' hx'' => ?_⟩
  obtain ⟨x', hx', hsub'⟩ := h'.records t x'' hx''
  obtain ⟨x, hx, hsub⟩ := h.records t x' hx'
  exact ⟨x, hx, List.Subset.trans hsub' hsub⟩

lemma mono (h : Touches X D D') (hXY : X ⊆ Y) : Touches Y D D' :=
  ⟨fun b hb => h.sockets b fun hX => hb (hXY hX), h.records⟩

/-- One socket is assigned to or freed. -/
lemma update (ha : a ∈ X) (hsockets : D'.sockets = Function.update D.sockets a o)
    (htr : D'.transports = D.transports) : Touches X D D' := by
  refine ⟨fun b hb => ?_, fun _ x' hx' => ⟨x', htr ▸ hx', List.Subset.refl _⟩⟩
  have hba : b ≠ a := by
    rintro rfl
    exact hb ha
  rw [hsockets, update_of_ne hba]

/-- One transport is assigned to. -/
lemma transport (hx : D.transports t = some x) (hdis : y.disconnects ⊆ x.disconnects)
    (hsockets : D'.sockets = D.sockets)
    (htr : D'.transports = Function.update D.transports t (some y)) : Touches X D D' := by
  refine ⟨fun b _ => congrFun hsockets b, fun u z hz => ?_⟩
  rw [htr] at hz
  by_cases hut : u = t
  · subst hut
    rw [update_self, Option.some.injEq] at hz
    exact ⟨x, hx, hz ▸ hdis⟩
  · exact ⟨z, (update_of_ne hut ..).symm.trans hz, List.Subset.refl _⟩

end Touches

/-! ## Memory and the event loop -/

namespace Daemon

variable {D : Daemon} {a : Addr} {s : Asocket} {t : TAddr} {x : Atransport}

lemma deref_balanced (hD : D.Sane) (a : Addr) :
    Balanced 0 0 (fun _ => D) D (D.deref a) fun s => D.sockets a = some s := by
  rw [deref]
  cases hs : D.sockets a with
  | none => exact .error (by simp)
  | some s => exact .ok (.refl hD) rfl

lemma derefT_balanced (hD : D.Sane) (t : TAddr) :
    Balanced 0 0 (fun _ => D) D (D.derefT t) fun x => D.transports t = some x := by
  rw [derefT]
  cases hx : D.transports t with
  | none => exact .error (by simp)
  | some x => exact .ok (.refl hD) rfl

/-- A function of the event loop, which only stops for reasons of its own. -/
lemma onLoop_balanced (hD : D.Sane) {f : Loop FdeId → Except Stop (Loop FdeId)}
    (hf : ∀ r, f D.loop = .error r → ∀ t, r ≠ .queueFull t) :
    Balanced 0 0 (fun D' => D') D (D.onLoop f) fun D' => ∃ L, D' = { D with loop := L } := by
  rw [onLoop]
  cases hL : f D.loop with
  | error r => exact .error (hf r hL)
  | ok L => exact .ok (.quiet hD rfl) ⟨L, rfl⟩

section Loop

variable {κ : Type} [DecidableEq κ] {k : κ} {ev : BitVec 16} {n : ℕ} {L : Loop κ} {r : Stop}

lemma fdeventSet_notFull (h : Loop.fdeventSet k ev L = .error r) (t : TAddr) :
    r ≠ .queueFull t := by
  obtain ⟨n, rfl⟩ := Loop.fdeventSet_error h
  nofun

lemma fdeventAdd_notFull (h : Loop.fdeventAdd k ev L = .error r) (t : TAddr) :
    r ≠ .queueFull t := by
  rw [Loop.fdeventAdd] at h
  exact fdeventSet_notFull h t

lemma fdeventDel_notFull (h : Loop.fdeventDel k ev L = .error r) (t : TAddr) :
    r ≠ .queueFull t := by
  rw [Loop.fdeventDel] at h
  exact fdeventSet_notFull h t

lemma fdeventInstall_notFull (h : Loop.fdeventInstall k n L = .error r) (t : TAddr) :
    r ≠ .queueFull t := by
  rw [Loop.fdeventInstall_error h]
  nofun

lemma fdeventRemove_notFull (h : Loop.fdeventRemove k L = .error r) (t : TAddr) :
    r ≠ .queueFull t := by
  obtain ⟨n, rfl⟩ := Loop.fdeventRemove_error h
  nofun

end Loop

lemma takeFd_balanced (hD : D.Sane) (d : Desc) :
    Balanced 0 0 Prod.snd D (D.takeFd d) fun y =>
      ∃ L O I, y.2 = { D with loop := L, owner := O, io := I } := by
  rcases takeFd_cases d D with h | ⟨n, fds, -, h⟩ | h
  all_goals rw [h]
  · exact .ok (.refl hD) ⟨_, _, _, rfl⟩
  · exact .ok (.quiet hD rfl) ⟨_, _, _, rfl⟩
  · exact .error (by simp)

/-! ## Transports -/

lemma modifyT_balanced (hD : D.Sane) (t : TAddr) {f : Atransport → Atransport}
    (hmain : ∀ x, (f x).toMain = x.toMain) (hinput : ∀ x, (f x).toInput = x.toInput) :
    Balanced 0 0 (fun D' => D') D (D.modifyT t f) fun D' =>
      ∃ x, D.transports t = some x ∧ D' = D.setTransport t (f x) := by
  refine (derefT_balanced hD t).seq fun x _ hx => ?_
  exact .ok (.setTransport hD hx (hmain x) (hinput x)) ⟨x, hx, rfl⟩

lemma addTransportDisconnect_balanced (hD : D.Sane) (t : TAddr) (a : Addr) :
    Balanced 0 0 (fun D' => D') D (D.addTransportDisconnect t a) fun D' =>
      D'.sockets = D.sockets ∧ D'.nextAddr = D.nextAddr := by
  refine (derefT_balanced hD t).seq fun x _ hx => ?_
  exact .ok (.setTransport hD hx rfl rfl) ⟨rfl, rfl⟩

lemma removeTransportDisconnect_balanced (hD : D.Sane) (t : Option TAddr) (a : Addr) :
    Balanced 0 0 (fun D' => D') D (D.removeTransportDisconnect t a) (Touches ∅ D) := by
  cases t with
  | none => exact .ok (.refl hD) (.refl D)
  | some t =>
    refine (derefT_balanced hD t).seq fun x _ hx => ?_
    exact .ok (.setTransport hD hx rfl rfl) (.transport hx List.erase_subset rfl rfl)

/-! ## `send_packet` -/

/-- The packet is handed on, which takes one place. -/
lemma writePacket_balanced (hD : D.Sane) (via : Option Addr) (p : Apacket) (t : TAddr) :
    Balanced (Pi.single p.addr 1) 1 (fun D' => D') D (D.writePacket via p t) (Touches ∅ D) := by
  refine (derefT_balanced hD t).seq fun x _ hx => ?_
  split
  · split
    · split
      case isTrue => exact .ok (.send hD hx via p) (.transport hx
        (y := { x with toInput := x.toInput ++ [p] }) (List.Subset.refl _) rfl rfl)
      case isFalse hfull =>
        intro hroom
        refine absurd ?_ hfull
        rw [Config.hasRoom]
        split
        · rfl
        case h_2 n hn => exact decide_eq_true (hroom t x n hx hn)
    · exact .error (by simp)
  · split
    · exact .error (by simp)
    · exact .error (by simp)

lemma sendPacket_balanced (hD : D.Sane) (via : Option Addr) (p : Apacket) (t : TAddr) :
    Balanced (Pi.single p.addr 1) 1 (fun D' => D') D (D.sendPacket via p (some t))
      (Touches ∅ D) :=
  writePacket_balanced hD via (stamp p) t

/-- A packet that is asked for and given a place is no change. -/
lemma single_cancel (n : ℕ) : (Pi.single n (-1) + Pi.single n 1 : ℕ → ℤ) = 0 := by
  funext i
  rw [Pi.add_apply, Pi.single_apply, Pi.single_apply]
  split_ifs <;> simp

/-- `send_packet` of a fresh packet. -/
lemma sendMsg_balanced (hD : D.Sane) (via : Option Addr) (msg : Amessage) (data : List UInt8)
    (t : TAddr) :
    Balanced 0 1 (fun D' => D') D (D.sendMsg via msg data (some t)) (Touches ∅ D) := by
  have hget := Books.getApacket hD
  refine .after hget ((sendPacket_balanced hget.sane via _ t).mono rfl (le_refl _) fun D' h => ?_)
    (single_cancel _) (le_refl _)
  have hsame : Touches ∅ D D.getApacket.2 := .of_eq rfl rfl
  exact hsame.trans h

end Daemon

end Adbd
