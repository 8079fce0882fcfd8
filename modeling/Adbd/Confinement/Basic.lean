import Adbd.Framework.Footprint
import Adbd.Effects.Transports

/-!
# Confinement: what a function leaves alone

The functions of the daemon work on the sockets they are given and on those they reach through
their peers.  `Within A` says that a change stays in a set `A` of sockets: nothing happens to a
socket outside, and no link leads out of `A` or into it afterwards.  It composes, so that one
lemma for each function is enough, and none of them needs to know what its callees do.

Sockets that are still to be made are in `A` from the start.
-/

namespace Adbd

open Function Transition FlagWord Footprint

/-! ## Sockets nothing happens to -/

/-- The observation is about the socket `b`. -/
def Obs.Concerns (b : Addr) : Obs → Prop
  | .sent _ via _ => via = some b
  | .enqueued a _ _ | .wrote a _ | .told a _ | .read a _ | .writeFailed a | .closing a _
  | .destroyed a _ => a = b
  | .stream r a _ _ _ | .opened r a => r = b ∨ a = b
  | _ => False

namespace Daemon

/-- The descriptor the `fdevent` of `b` watches and its state, but for whether it is pending. -/
def watches (b : Addr) (D : Daemon) : ℕ × BitVec 16 :=
  ((D.loop.mem (.socket b)).fd, (D.loop.mem (.socket b)).state &&& ~~~fdePending)

/-- Nothing has happened to `b`: the socket is what it was, it waits for the same events, and the
history says nothing new about it. -/
structure Untouched (b : Addr) (D D' : Daemon) : Prop where
  socket : D'.sockets b = D.sockets b
  watches : D'.watches b = D.watches b
  history : ∃ os, D'.trace = os ++ D.trace ∧ ∀ o ∈ os, ¬o.Concerns b

section Untouched

variable {b : Addr} {D D' D'' : Daemon}

/-- A change that nothing is noted about. -/
lemma Untouched.silent (hsocket : D'.sockets b = D.sockets b)
    (hwatches : D'.watches b = D.watches b) (htrace : D'.trace = D.trace) : Untouched b D D' :=
  ⟨hsocket, hwatches, [], htrace, fun _ h => absurd h List.not_mem_nil⟩

lemma Untouched.refl (b : Addr) (D : Daemon) : Untouched b D D := .silent rfl rfl rfl

lemma Untouched.trans (h : Untouched b D D') (h' : Untouched b D' D'') : Untouched b D D'' := by
  obtain ⟨os, htrace, hos⟩ := h.history
  obtain ⟨os', htrace', hos'⟩ := h'.history
  refine ⟨h'.socket.trans h.socket, h'.watches.trans h.watches, os' ++ os, ?_, fun o ho => ?_⟩
  · rw [htrace', htrace, List.append_assoc]
  · exact (List.mem_append.mp ho).elim (hos' o) (hos o)

end Untouched

/-! ## Changes within a set of sockets -/

/-- No link leads out of `A` or into it, and new sockets will be in it. -/
structure Contained (A : Set Addr) (D : Daemon) : Prop where
  sealed : Sealed Asocket.peer A D.sockets
  fresh : ∀ b, D.nextAddr ≤ b → b ∈ A

/-- From `D` to `D'` nothing happens outside `A`. -/
structure Within (A : Set Addr) (D D' : Daemon) : Prop where
  untouched : ∀ b ∉ A, Untouched b D D'
  contained : Contained A D'
  records : ∀ t y, D'.transports t = some y → ∀ r ∈ y.disconnects, r ∉ A →
    ∃ x, D.transports t = some x ∧ r ∈ x.disconnects

section Within

variable {A : Set Addr} {D D' D'' : Daemon} {a : Addr} {s : Asocket} {t : TAddr} {x y : Atransport}
  {L : Loop FdeId} {o : Obs}

/-- The peer of a socket in `A`. -/
lemma Contained.peer (h : Contained A D) (ha : a ∈ A) (hs : D.sockets a = some s) :
    ∀ p, s.peer = some p → p ∈ A :=
  fun _ hp => h.sealed.follow ha hs hp

lemma Within.refl (h : Contained A D) : Within A D D :=
  ⟨fun b _ => .refl b D, h, fun _ y hy _ hr _ => ⟨y, hy, hr⟩⟩

lemma Within.trans (h : Within A D D') (h' : Within A D' D'') : Within A D D'' := by
  refine ⟨fun b hb => (h.untouched b hb).trans (h'.untouched b hb), h'.contained, ?_⟩
  intro t z hz r hr hout
  obtain ⟨y, hy, hr'⟩ := h'.records t z hz r hr hout
  exact h.records t y hy r hr' hout

/-- A change of what is neither a socket nor about one. -/
lemma Within.aside (h : Contained A D) (hsockets : D'.sockets = D.sockets)
    (hnext : D'.nextAddr = D.nextAddr) (hmem : D'.loop.mem = D.loop.mem)
    (htrace : D'.trace = D.trace) (htransports : D'.transports = D.transports) :
    Within A D D' := by
  refine ⟨fun b _ => .silent (by rw [hsockets]) ?_ htrace, ⟨?_, ?_⟩, ?_⟩
  · rw [Daemon.watches, hmem]
    rfl
  · rw [hsockets]
    exact h.sealed
  · rw [hnext]
    exact h.fresh
  · rw [htransports]
    exact fun t y hy r hr _ => ⟨y, hy, hr⟩

/-- Storing a socket in `A` whose peer is in `A`. -/
lemma Within.setSocket (h : Contained A D) (ha : a ∈ A) (hs : ∀ p, s.peer = some p → p ∈ A) :
    Within A D (D.setSocket a s) := by
  refine ⟨fun b hb => .silent (update_of_ne (by rintro rfl; exact hb ha) ..) rfl rfl,
    ⟨h.sealed.update ha ?_, h.fresh⟩, fun t y hy r hr _ => ⟨y, hy, hr⟩⟩
  rintro s' j heq
  cases heq
  exact hs j

/-- A socket without a peer links to nothing outside. -/
lemma peerless (A : Set Addr) : ∀ p, (none : Option Addr) = some p → p ∈ A := by
  rintro p ⟨⟩

/-- Assigning to another field than the peer. -/
lemma Within.assign (h : Contained A D) (ha : a ∈ A) (hs : D.sockets a = some s) {q : Asocket}
    (hq : q.peer = s.peer) : Within A D (D.setSocket a q) :=
  .setSocket h ha fun p hp => h.peer ha hs p (hq ▸ hp)

lemma Within.freeSocket (h : Contained A D) (ha : a ∈ A) : Within A D (D.freeSocket a) := by
  refine ⟨fun b hb => .silent (update_of_ne (by rintro rfl; exact hb ha) ..) rfl rfl,
    ⟨h.sealed.update ha ?_, h.fresh⟩, fun t y hy r hr _ => ⟨y, hy, hr⟩⟩
  rintro s' j heq
  cases heq

/-- A new socket whose peer is in `A`. -/
lemma Within.callocSocket (h : Contained A D) (hs : ∀ p, s.peer = some p → p ∈ A) :
    Within A D (D.callocSocket s).2 := by
  have hnew : D.nextAddr ∈ A := h.fresh _ (le_refl _)
  have hne : ∀ b ∉ A, b ≠ D.nextAddr := by
    rintro b hb rfl
    exact hb hnew
  refine ⟨fun b hb => .silent (update_of_ne (hne b hb) ..) ?_ rfl,
    ⟨h.sealed.update hnew ?_, ?_⟩, fun t y hy r hr _ => ⟨y, hy, hr⟩⟩
  · have hkey : FdeId.socket b ≠ .socket D.nextAddr := fun heq => hne b hb (FdeId.socket.inj heq)
    simp only [Daemon.watches, Daemon.callocSocket, Loop.setMem_mem_of_ne hkey]
  · rintro s' j heq
    cases heq
    exact hs j
  · exact fun b hb => h.fresh b (Nat.le_of_succ_le hb)

lemma Within.emit (h : Contained A D) (ho : ∀ b ∉ A, ¬o.Concerns b) : Within A D (D.emit o) := by
  refine ⟨fun b hb => ⟨rfl, rfl, [o], rfl, fun o' ho' => ?_⟩, ⟨h.sealed, h.fresh⟩,
    fun t y hy r hr _ => ⟨y, hy, hr⟩⟩
  rw [List.mem_singleton.mp ho']
  exact ho b hb

/-- A change of the event loop that leaves the `fdevent`s outside as they are. -/
lemma Within.loop (h : Contained A D)
    (hL : ∀ b ∉ A, ({ D with loop := L } : Daemon).watches b = D.watches b) :
    Within A D { D with loop := L } :=
  ⟨fun b hb => .silent rfl (hL b hb) rfl, ⟨h.sealed, h.fresh⟩,
    fun _ y hy _ hr _ => ⟨y, hy, hr⟩⟩

/-- Assigning to a transport; what is linked with it is new only in `A`. -/
lemma Within.setTransport (h : Contained A D) (hx : D.transports t = some x)
    (hy : ∀ r ∈ y.disconnects, r ∉ A → r ∈ x.disconnects) :
    Within A D (D.setTransport t y) := by
  refine ⟨fun b _ => .silent rfl rfl rfl, ⟨h.sealed, h.fresh⟩, fun u z hz r hr hout => ?_⟩
  by_cases hut : u = t
  · subst hut
    cases (update_self ..).symm.trans hz
    exact ⟨x, hx, hy r hr hout⟩
  · exact ⟨z, (update_of_ne hut ..).symm.trans hz, hr⟩

/-- A transport that goes, or one with no record that comes. -/
lemma Within.putTransport (h : Contained A D) (t : TAddr) {o : Option Atransport}
    (ho : ∀ z, o = some z → z.disconnects = []) :
    Within A D { D with transports := update D.transports t o } := by
  refine ⟨fun b _ => .silent rfl rfl rfl, ⟨h.sealed, h.fresh⟩, fun u z hz r hr _ => ?_⟩
  by_cases hut : u = t
  · subst hut
    cases (update_self ..).symm.trans hz
    rw [ho z rfl] at hr
    cases hr
  · exact ⟨z, (update_of_ne hut ..).symm.trans hz, hr⟩

end Within

/-! ## Functions -/

/-- The function, if it succeeds, has changed nothing outside `A`. -/
def Stays {β : Type} (A : Set Addr) (g : β → Daemon) (D : Daemon) (z : Except Stop β) : Prop :=
  Ensures z fun y => Within A D (g y)

section Stays

variable {β γ : Type} {A : Set Addr} {D D' : Daemon} {z : Except Stop β} {g : β → Daemon}
  {k : γ → Daemon} {a p : Addr} {s : Asocket} {t : TAddr}

lemma Stays.ok {y : β} (h : Within A D (g y)) : Stays A g D (.ok y) := h

lemma Stays.error {e : Stop} : Stays A g D (.error e) := trivial

/-- Chaining along `do`. -/
lemma Stays.seq (hz : Stays A g D z) {f : β → Except Stop γ}
    (hf : ∀ y, z = .ok y → Within A D (g y) → Stays A k (g y) (f y)) :
    Stays A k D (z >>= f) :=
  Outcome.bind hz fun y hy hwithin => (hf y hy hwithin).mono fun _ h => hwithin.trans h

/-- After a change within `A`. -/
lemma Stays.after (h : Within A D D') (hz : Stays A g D' z) : Stays A g D z :=
  hz.mono fun _ hy => h.trans hy

/-- Reading a socket. -/
lemma Stays.deref {f : Asocket → Except Stop γ}
    (hf : ∀ s, D.sockets a = some s → Stays A k D (f s)) : Stays A k D (D.deref a >>= f) := by
  cases hs : D.sockets a with
  | none =>
    rw [Daemon.deref, hs]
    trivial
  | some s =>
    rw [deref_bind hs]
    exact hf s hs

/-- Reading a transport. -/
lemma Stays.derefT {f : Atransport → Except Stop γ}
    (hf : ∀ x, D.transports t = some x → Stays A k D (f x)) : Stays A k D (D.derefT t >>= f) := by
  cases hx : D.transports t with
  | none =>
    rw [Daemon.derefT, hx]
    trivial
  | some x =>
    rw [derefT_bind hx]
    exact hf x hx

/-- Following a link into `A`. -/
lemma Stays.peerOf (hs : ∀ p, s.peer = some p → p ∈ A) {f : Addr → Except Stop γ}
    (hf : ∀ p ∈ A, Stays A k D (f p)) : Stays A k D (peerOf a s >>= f) := by
  cases hp : s.peer with
  | none =>
    rw [Daemon.peerOf, hp]
    trivial
  | some p =>
    rw [peerOf_bind hp]
    exact hf p (hs p hp)

/-- An operation of the event loop on an `fdevent` that is no socket's outside. -/
lemma Stays.onLoop (h : Contained A D) {f : Loop FdeId → Except Stop (Loop FdeId)}
    (hf : ∀ L, f D.loop = .ok L → ∀ b ∉ A,
      ({ D with loop := L } : Daemon).watches b = D.watches b) :
    Stays A (fun D => D) D (D.onLoop f) := by
  rw [Daemon.onLoop]
  cases hL : f D.loop with
  | error e => trivial
  | ok L => exact .ok (.loop h (hf L hL))

/-! ## The event loop and the threads' sockets -/

lemma watches_of_mem {b : Addr} {L : Loop FdeId}
    (h : L.mem (.socket b) = D.loop.mem (.socket b)) :
    ({ D with loop := L } : Daemon).watches b = D.watches b := by
  rw [watches, watches, h]

/-- The `fdevent` is not that of a socket outside. -/
def Inner (A : Set Addr) (k : FdeId) : Prop := ∀ b ∉ A, FdeId.socket b ≠ k

lemma inner_socket (ha : a ∈ A) : Inner A (.socket a) := by
  rintro b hb heq
  cases heq
  exact hb ha

lemma onLoop_stays (h : Contained A D) {κ : FdeId} (hκ : Inner A κ)
    {f : Loop FdeId → Except Stop (Loop FdeId)}
    (hf : ∀ L, f D.loop = .ok L → ∀ j, j ≠ κ → L.mem j = D.loop.mem j) :
    Stays A (fun D => D) D (D.onLoop f) :=
  .onLoop h fun L hL b hb => watches_of_mem (hf L hL _ (hκ b hb))

lemma fdeventSet_stays (h : Contained A D) {κ : FdeId} (hκ : Inner A κ) (ev : BitVec 16) :
    Stays A (fun D => D) D (D.onLoop (Loop.fdeventSet κ ev)) :=
  onLoop_stays h hκ fun _ hL => (Loop.fdeventSet_spec hL).mem_other

lemma fdeventAdd_stays (h : Contained A D) {κ : FdeId} (hκ : Inner A κ) (ev : BitVec 16) :
    Stays A (fun D => D) D (D.onLoop (Loop.fdeventAdd κ ev)) := by
  refine onLoop_stays h hκ fun L hL => ?_
  rw [Loop.fdeventAdd] at hL
  exact (Loop.fdeventSet_spec hL).mem_other

lemma fdeventDel_stays (h : Contained A D) {κ : FdeId} (hκ : Inner A κ) (ev : BitVec 16) :
    Stays A (fun D => D) D (D.onLoop (Loop.fdeventDel κ ev)) := by
  refine onLoop_stays h hκ fun L hL => ?_
  rw [Loop.fdeventDel] at hL
  exact (Loop.fdeventSet_spec hL).mem_other

lemma fdeventRemove_stays (h : Contained A D) {κ : FdeId} (hκ : Inner A κ) :
    Stays A (fun D => D) D (D.onLoop (Loop.fdeventRemove κ)) :=
  onLoop_stays h hκ fun _ hL => (Loop.fdeventRemove_spec hL).mem_other

lemma fdeventInstall_stays (h : Contained A D) {κ : FdeId} (hκ : Inner A κ) (n : ℕ) :
    Stays A (fun D => D) D (D.onLoop (Loop.fdeventInstall κ n)) := by
  refine onLoop_stays h hκ fun L hL j hj => ?_
  obtain ⟨T, M, rfl, -, -⟩ := Loop.fdeventInstall_ok hL
  exact Loop.setMem_mem_of_ne hj ..

lemma takeFd_stays (h : Contained A D) (d : Desc) : Stays A Prod.snd D (D.takeFd d) := by
  rcases takeFd_cases d D with hfd | ⟨n, fds, -, hfd⟩ | hfd
  all_goals rw [hfd]
  · exact .ok (.refl h)
  · exact .ok (.aside h rfl rfl rfl rfl rfl)
  · trivial

/-! ## Transports and packets -/

lemma getApacket_within (h : Contained A D) : Within A D D.getApacket.2 :=
  .aside h rfl rfl rfl rfl rfl

lemma putApacket_within (h : Contained A D) (p : Apacket) : Within A D (D.putApacket p) :=
  .emit h fun _ _ hno => hno

lemma modifyT_stays (h : Contained A D) {f : Atransport → Atransport}
    (hf : ∀ x, (f x).disconnects = x.disconnects) :
    Stays A (fun D => D) D (D.modifyT t f) := by
  rw [modifyT]
  refine .derefT fun x hx => .ok (.setTransport h hx fun r hr _ => ?_)
  rwa [hf] at hr

/-- `send_packet` on behalf of no socket outside. -/
lemma sendPacket_stays (h : Contained A D) {via : Option Addr} (hvia : ∀ r, via = some r → r ∈ A)
    (p : Apacket) (u : Option TAddr) : Stays A (fun D => D) D (D.sendPacket via p u) := by
  cases u with
  | none => exact .ok (.refl h)
  | some u =>
    rw [sendPacket, writePacket]
    refine .derefT fun x hx => ?_
    split
    · split
      · split
        · have hput := Within.setTransport (y := { x with toInput := x.toInput ++ [stamp p] }) h hx
            fun _ hr _ => hr
          refine .ok (hput.trans (.emit hput.contained fun b hb hvb => hb (hvia b hvb)))
        · trivial
      · trivial
    · split <;> trivial

lemma sendMsg_stays (h : Contained A D) {via : Option Addr} (hvia : ∀ r, via = some r → r ∈ A)
    (msg : Amessage) (data : List UInt8) (u : Option TAddr) :
    Stays A (fun D => D) D (D.sendMsg via msg data u) := by
  have hget := getApacket_within h
  exact .after hget (sendPacket_stays hget.contained hvia _ u)

lemma putApackets_within (h : Contained A D) (ps : List Apacket) :
    Within A D (D.putApackets ps) := by
  rw [putApackets]
  induction ps generalizing D with
  | nil => exact .refl h
  | cons p ps ih =>
    have hput := putApacket_within h p
    exact hput.trans (ih hput.contained)

end Stays

end Daemon

end Adbd
