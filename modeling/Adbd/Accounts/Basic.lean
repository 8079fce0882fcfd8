import Adbd.Effects.Kinds
import Adbd.Framework.Heap

/-!
# Accounts of packets

Who owns a packet is a matter of convention in the program: `enqueue` takes the packet, whatever
it returns, `send_packet` takes it, `put_apacket` ends its life, and nobody checks.  The accounts
make the convention visible.  A packet the daemon has asked for is linked in a queue of a socket,
on its way between `output_thread` and the main loop, released, or handed on by `send_packet`;
`account` counts the places of the main loop, and an address not yet given out counts as one, so
that `get_apacket` takes a packet off the account and each function puts it back somewhere.

`Books g c D D'` says what a part of a step does to the accounts: the packet `n` gains `g n` places,
nothing is taken from anywhere else, and no transport is sent more than `c` packets.  `Balanced` is
the judgement that a function does so, and does not find a full queue if each of them had `c` free
places.  It is derived function by function, along the functions of the source.
-/

namespace Adbd

open Function Transition

/-! ## Where packets are -/

/-- How many of the packets are packet `n`. -/
def occurrences (n : ℕ) (ps : List Apacket) : ℕ := ps.countP fun p => p.addr = n

lemma occurrences_append (n : ℕ) (ps qs : List Apacket) :
    occurrences n (ps ++ qs) = occurrences n ps + occurrences n qs := List.countP_append

/-- One packet is in one place. -/
lemma occurrences_singleton (n : ℕ) (p : Apacket) :
    (occurrences n [p] : ℤ) = (Pi.single p.addr 1 : ℕ → ℤ) n := by
  rw [occurrences, List.countP_cons, List.countP_nil, Pi.single_apply]
  by_cases hn : n = p.addr
  · simp [hn]
  · simp [hn, Ne.symm hn]

/-- The observation is a release of packet `n`. -/
def Obs.releases (n : ℕ) : Obs → Bool
  | .put i => i = n
  | _ => false

/-- The observation is a call of `send_packet` with packet `n`. -/
def Obs.handsOn (n : ℕ) : Obs → Bool
  | .sent _ _ p => p.addr = n
  | _ => false

/-- The observations the accounts are about. -/
def Obs.isEntry : Obs → Bool
  | .put _ | .sent _ _ _ => true
  | _ => false

namespace Daemon

/-- How often packet `n` is linked in the queue of a socket. -/
def linked (n : ℕ) (D : Daemon) : ℕ :=
  Heap.total (fun s : Asocket => occurrences n s.pkts) D.sockets D.nextAddr

/-- How often packet `n` is on its way from an `output_thread` to the main loop. -/
def incoming (n : ℕ) (D : Daemon) : ℕ :=
  Heap.total (fun x : Atransport => occurrences n x.toMain) D.transports D.nextTAddr

/-- How often packet `n` is on its way from `send_packet` to an `input_thread`. -/
def outgoing (n : ℕ) (D : Daemon) : ℕ :=
  Heap.total (fun x : Atransport => occurrences n x.toInput) D.transports D.nextTAddr

/-- How often packet `n` was released. -/
def released (n : ℕ) (D : Daemon) : ℕ := D.trace.countP (Obs.releases n)

/-- How often packet `n` was handed on. -/
def handedOn (n : ℕ) (D : Daemon) : ℕ := D.trace.countP (Obs.handsOn n)

/-- Whether `get_apacket` has yet to return packet `n`. -/
def unused (n : ℕ) (D : Daemon) : ℕ := if n < D.nextPacket then 0 else 1

/-- The places of packet `n` the main loop has to account for. -/
def account (n : ℕ) (D : Daemon) : ℕ :=
  D.linked n + D.released n + D.handedOn n + D.unused n

/-- The queue to each `input_thread` has `k` free places. -/
def Room (k : ℕ) (D : Daemon) : Prop :=
  ∀ t x c, D.transports t = some x → D.config.capacity = some c → x.toInput.length + k ≤ c

end Daemon

/-! ## States with books -/

/-- The queues a socket can have, by its kind. -/
def Asocket.Plain (s : Asocket) : Prop :=
  match s.ops with
  | .remote => s.transport.isSome = true ∧ s.pkts = []
  | .smart => s.pkts.length ≤ 1
  | .jdwp | .tracker => s.pkts = []
  | _ => True

/-- What has to be known of a state to keep books. -/
structure Daemon.Sane (D : Daemon) : Prop where
  fresh : ∀ a s, D.sockets a = some s → a < D.nextAddr
  freshT : ∀ t x, D.transports t = some x → t < D.nextTAddr
  typed : D.Typed
  plain : ∀ a s, D.sockets a = some s → s.Plain
  noProcess : D.jdwpList = []

/-- The part of a state the accounts are about. -/
structure Ledger where
  sockets : Addr → Option Asocket
  nextAddr : Addr
  transports : TAddr → Option Atransport
  nextTAddr : TAddr
  config : Config
  nextPacket : ℕ
  jdwpList : List JdwpProcess
  entries : List Obs

def Daemon.ledger (D : Daemon) : Ledger :=
  ⟨D.sockets, D.nextAddr, D.transports, D.nextTAddr, D.config, D.nextPacket, D.jdwpList,
    D.trace.filter Obs.isEntry⟩

/-- From `D` to `D'` packet `n` gains `g n` places and each transport at most `c` packets. -/
structure Books (g : ℕ → ℤ) (c : ℕ) (D D' : Daemon) : Prop where
  sane : D'.Sane
  balance : ∀ n, (D'.account n : ℤ) = D.account n + g n
  incoming : ∀ n, D'.incoming n ≤ D.incoming n
  -- what is new in a queue to an `input_thread` was handed on
  flow : ∀ n, D'.outgoing n + D.handedOn n ≤ D.outgoing n + D'.handedOn n
  config : D'.config = D.config
  spends : ∀ t x', D'.transports t = some x' →
    ∃ x, D.transports t = some x ∧ x'.toInput.length ≤ x.toInput.length + c
  next : D.nextPacket ≤ D'.nextPacket

section Ledger

variable {D D' : Daemon} {n : ℕ}

lemma released_eq (n : ℕ) (D : Daemon) :
    D.released n = D.ledger.entries.countP (Obs.releases n) := by
  rw [Daemon.released, Daemon.ledger, List.countP_filter]
  congr 1
  funext o
  cases o <;> simp [Obs.releases, Obs.isEntry]

lemma handedOn_eq (n : ℕ) (D : Daemon) :
    D.handedOn n = D.ledger.entries.countP (Obs.handsOn n) := by
  rw [Daemon.handedOn, Daemon.ledger, List.countP_filter]
  congr 1
  funext o
  cases o <;> simp [Obs.handsOn, Obs.isEntry]

/-- States with the same ledger are the same for the accounts. -/
lemma Books.of_ledger {g : ℕ → ℤ} {c : ℕ} {D'' : Daemon} (h : Books g c D D')
    (heq : D''.ledger = D'.ledger) : Books g c D D'' := by
  have hsockets : D''.sockets = D'.sockets := congrArg Ledger.sockets heq
  have hnext : D''.nextAddr = D'.nextAddr := congrArg Ledger.nextAddr heq
  have htr : D''.transports = D'.transports := congrArg Ledger.transports heq
  have hnextT : D''.nextTAddr = D'.nextTAddr := congrArg Ledger.nextTAddr heq
  have hpacket : D''.nextPacket = D'.nextPacket := congrArg Ledger.nextPacket heq
  have hhanded : ∀ n, D''.handedOn n = D'.handedOn n := fun n => by
    rw [handedOn_eq, handedOn_eq, heq]
  have hreleased : ∀ n, D''.released n = D'.released n := fun n => by
    rw [released_eq, released_eq, heq]
  have hsane := h.sane
  constructor
  · constructor
    · rw [hsockets, hnext]
      exact hsane.fresh
    · rw [htr, hnextT]
      exact hsane.freshT
    · exact (Shrinks.of_eq hsockets hnext).typed hsane.typed
    · rw [hsockets]
      exact hsane.plain
    · exact (congrArg Ledger.jdwpList heq).trans hsane.noProcess
  · intro n
    rw [← h.balance n, Daemon.account, Daemon.account, hreleased, hhanded, Daemon.linked,
      Daemon.linked, Daemon.unused, Daemon.unused, hsockets, hnext, hpacket]
  · intro n
    rw [Daemon.incoming, htr, hnextT]
    exact h.incoming n
  · intro n
    rw [Daemon.outgoing, htr, hnextT, hhanded]
    exact h.flow n
  · exact (congrArg Ledger.config heq).trans h.config
  · rw [htr]
    exact h.spends
  · rw [hpacket]
    exact h.next

end Ledger

namespace Books

variable {D D' D'' : Daemon} {g g' : ℕ → ℤ} {c c' : ℕ}

lemma refl (hD : D.Sane) : Books 0 0 D D := by
  refine ⟨hD, fun n => ?_, fun _ => le_refl _, fun _ => le_refl _, rfl,
    fun t x hx => ⟨x, hx, le_refl _⟩, le_refl _⟩
  rw [Pi.zero_apply, add_zero]

lemma trans (h : Books g c D D') (h' : Books g' c' D' D'') : Books (g + g') (c + c') D D'' := by
  refine ⟨h'.sane, fun n => ?_, fun n => ?_, fun n => ?_, h'.config.trans h.config,
    fun t x'' hx'' => ?_, h.next.trans h'.next⟩
  · rw [h'.balance, h.balance, Pi.add_apply, add_assoc]
  · exact (h'.incoming n).trans (h.incoming n)
  · have hfst := h.flow n
    have hsnd := h'.flow n
    omega
  · obtain ⟨x', hx', hle'⟩ := h'.spends t x'' hx''
    obtain ⟨x, hx, hle⟩ := h.spends t x' hx'
    exact ⟨x, hx, by omega⟩

lemma mono (h : Books g c D D') (hg : g = g') (hc : c ≤ c') : Books g' c' D D' := by
  subst hg
  refine ⟨h.sane, h.balance, h.incoming, h.flow, h.config, fun t x' hx' => ?_, h.next⟩
  obtain ⟨x, hx, hle⟩ := h.spends t x' hx'
  exact ⟨x, hx, by omega⟩

/-- A change that is not about packets. -/
lemma quiet (hD : D.Sane) (heq : D'.ledger = D.ledger) : Books 0 0 D D' :=
  (refl hD).of_ledger heq

/-- What is spent is no longer free. -/
lemma room (h : Books g c D D') (hroom : D.Room (c + c')) : D'.Room c' := by
  intro t x' k hx' hk
  obtain ⟨x, hx, hle⟩ := h.spends t x' hx'
  have := hroom t x k hx (h.config ▸ hk)
  omega

end Books

/-! ## Elementary changes -/

section Elementary

variable {D D' : Daemon} {a p : Addr} {s s' : Asocket} {t : TAddr} {x x' : Atransport}

/-- A socket is written, under an address nobody of the same kind points to. -/
lemma typed_store (hD : D.Typed) (hsockets : D'.sockets = update D.sockets a (some s'))
    (hnext : D.nextAddr ≤ D'.nextAddr)
    (hkind : ∀ b q, D.sockets b = some q → q.peer = some a → s'.ops.isLocal = !q.ops.isLocal)
    (hpeer : ∀ p, s'.peer = some p → p ≠ a ∧ p < D'.nextAddr ∧
      ∀ q, D.sockets p = some q → q.ops.isLocal = !s'.ops.isLocal) : D'.Typed := by
  intro b u p hb hp
  rw [hsockets] at hb
  by_cases hba : b = a
  · subst hba
    rw [update_self, Option.some.injEq] at hb
    subst hb
    obtain ⟨hne, hlt, hopposite⟩ := hpeer p hp
    refine ⟨hlt, fun q hq => hopposite q ?_⟩
    rw [hsockets, update_of_ne hne] at hq
    exact hq
  · rw [update_of_ne hba] at hb
    obtain ⟨hlt, hopposite⟩ := hD b u p hb hp
    refine ⟨Nat.lt_of_lt_of_le hlt hnext, fun q hq => ?_⟩
    rw [hsockets] at hq
    by_cases hpa : p = a
    · subst hpa
      rw [update_self, Option.some.injEq] at hq
      exact hq ▸ hkind b u hb hp
    · rw [update_of_ne hpa] at hq
      exact hopposite q hq

namespace Books

/-- A socket is assigned to: its queue may change, and it may be given a peer. -/
lemma store (hD : D.Sane) (hs : D.sockets a = some s) (s' : Asocket)
    (hkind : s'.ops.isLocal = s.ops.isLocal)
    (hpeer : ∀ p, s'.peer = some p → p < D.nextAddr ∧
      ∀ q, D.sockets p = some q → q.ops.isLocal = !s.ops.isLocal) (hplain : s'.Plain) :
    Books (fun n => (occurrences n s'.pkts : ℤ) - occurrences n s.pkts) 0 D
      (D.setSocket a s') := by
  refine ⟨⟨fun b u hb => ?_, hD.freshT, ?_, fun b u hb => ?_, hD.noProcess⟩, fun n => ?_,
    fun _ => le_refl _, fun _ => le_refl _, rfl, fun t x hx => ⟨x, hx, le_refl _⟩, le_refl _⟩
  · by_cases hba : b = a
    · exact hba ▸ hD.fresh a s hs
    · exact hD.fresh b u ((update_of_ne hba ..).symm.trans hb)
  · refine typed_store hD.typed rfl (le_refl _) (fun b q hb hp => ?_) fun p hp => ?_
    · rw [hkind]
      exact (hD.typed b q a hb hp).2 s hs
    · obtain ⟨hlt, hopposite⟩ := hpeer p hp
      refine ⟨?_, hlt, fun q hq => ?_⟩
      · rintro rfl
        simpa using hopposite s hs
      · rw [hkind]
        exact hopposite q hq
  · by_cases hba : b = a
    · subst hba
      cases (update_self ..).symm.trans hb
      exact hplain
    · exact hD.plain b u ((update_of_ne hba ..).symm.trans hb)
  · have hlinked : (D.setSocket a s').linked n + occurrences n s.pkts =
        D.linked n + occurrences n s'.pkts := by
      have h := Heap.total_update (w := fun s : Asocket => occurrences n s.pkts) (S := D.sockets)
        (hD.fresh a s hs) (some s')
      rw [hs] at h
      exact h
    have hrest : (D.setSocket a s').released n = D.released n ∧
        (D.setSocket a s').handedOn n = D.handedOn n ∧
        (D.setSocket a s').unused n = D.unused n := ⟨rfl, rfl, rfl⟩
    rw [Daemon.account, Daemon.account]
    omega

/-- Assigning to other fields of a socket, which may lose its peer. -/
lemma assign (hD : D.Sane) (hs : D.sockets a = some s) (s' : Asocket) (hops : s'.ops = s.ops)
    (hpeer : s'.peer = none ∨ s'.peer = s.peer) (hpkts : s'.pkts = s.pkts)
    (htr : s'.transport = s.transport) : Books 0 0 D (D.setSocket a s') := by
  refine (store hD hs s' (by rw [hops]) (fun p hp => ?_) ?_).mono ?_ (le_refl _)
  · rcases hpeer with hnone | hsame
    · rw [hnone] at hp
      cases hp
    · exact hD.typed a s p hs (hsame ▸ hp)
  · have hplain := hD.plain a s hs
    rw [Asocket.Plain] at hplain ⊢
    rw [hops, hpkts, htr]
    exact hplain
  · funext n
    rw [hpkts]
    exact sub_self _

lemma free (hD : D.Sane) (hs : D.sockets a = some s) :
    Books (fun n => -(occurrences n s.pkts : ℤ)) 0 D (D.freeSocket a) := by
  have hcut : Shrinks D (D.freeSocket a) := .free rfl rfl
  refine ⟨⟨fun b u hb => ?_, hD.freshT, hcut.typed hD.typed, fun b u hb => ?_, hD.noProcess⟩,
    fun n => ?_, fun _ => le_refl _, fun _ => le_refl _, rfl, fun t x hx => ⟨x, hx, le_refl _⟩,
    le_refl _⟩
  · obtain ⟨u', hu', -⟩ := hcut.socket b u hb
    exact hD.fresh b u' hu'
  · by_cases hba : b = a
    · rw [hba] at hb
      cases (update_self ..).symm.trans hb
    · exact hD.plain b u ((update_of_ne hba ..).symm.trans hb)
  · have hlinked : (D.freeSocket a).linked n + occurrences n s.pkts = D.linked n := by
      have h := Heap.total_update (w := fun s : Asocket => occurrences n s.pkts) (S := D.sockets)
        (hD.fresh a s hs) none
      rw [hs] at h
      exact h
    have hrest : (D.freeSocket a).released n = D.released n ∧
        (D.freeSocket a).handedOn n = D.handedOn n ∧
        (D.freeSocket a).unused n = D.unused n := ⟨rfl, rfl, rfl⟩
    rw [Daemon.account, Daemon.account]
    omega

/-- A socket without packets is freed. -/
lemma discard (hD : D.Sane) (hs : D.sockets a = some s) (hpkts : s.pkts = []) :
    Books 0 0 D (D.freeSocket a) := by
  refine (free hD hs).mono ?_ (le_refl _)
  funext n
  rw [hpkts]
  rfl

/-- A new socket, which may have a peer. -/
lemma calloc (hD : D.Sane) (hpkts : s.pkts = []) (hplain : s.Plain)
    (hpeer : ∀ p, s.peer = some p → p < D.nextAddr ∧
      ∀ q, D.sockets p = some q → q.ops.isLocal = !s.ops.isLocal) :
    Books 0 0 D (D.callocSocket s).2 := by
  refine ⟨⟨fun b u hb => ?_, hD.freshT, ?_, fun b u hb => ?_, hD.noProcess⟩, fun n => ?_,
    fun _ => le_refl _, fun _ => le_refl _, rfl, fun t x hx => ⟨x, hx, le_refl _⟩, le_refl _⟩
  · by_cases hb' : b = D.nextAddr
    · exact hb' ▸ Nat.lt_succ_self _
    · exact Nat.lt_succ_of_lt (hD.fresh b u ((update_of_ne hb' ..).symm.trans hb))
  · refine typed_store hD.typed rfl (Nat.le_succ _) (fun b q hb hp => ?_) fun p hp => ?_
    · exact absurd (hD.typed b q _ hb hp).1 (Nat.lt_irrefl _)
    · obtain ⟨hlt, hopposite⟩ := hpeer p hp
      exact ⟨Nat.ne_of_lt hlt, Nat.lt_succ_of_lt hlt, hopposite⟩
  · by_cases hb' : b = D.nextAddr
    · subst hb'
      cases (update_self ..).symm.trans hb
      exact hplain
    · exact hD.plain b u ((update_of_ne hb' ..).symm.trans hb)
  · have hlinked : (D.callocSocket s).2.linked n = D.linked n := by
      have h := Heap.total_alloc (w := fun s : Asocket => occurrences n s.pkts) (S := D.sockets)
        (n := D.nextAddr) s
      rw [hpkts] at h
      exact h
    have hrest : (D.callocSocket s).2.released n = D.released n ∧
        (D.callocSocket s).2.handedOn n = D.handedOn n ∧
        (D.callocSocket s).2.unused n = D.unused n := ⟨rfl, rfl, rfl⟩
    rw [Daemon.account, Daemon.account, Pi.zero_apply]
    omega

/-! ### Transports -/

/-- A transport is assigned to: packets to the main loop may be taken off. -/
lemma assignT (hD : D.Sane) (hx : D.transports t = some x)
    (hmain : ∀ n, occurrences n x'.toMain ≤ occurrences n x.toMain)
    (hinput : x'.toInput = x.toInput) : Books 0 0 D (D.setTransport t x') := by
  have hsame : ∀ n, (D.setTransport t x').outgoing n = D.outgoing n := fun n => by
    refine Heap.total_update_same ?_
    rw [hx, Heap.weigh, Heap.weigh, Option.elim_some, Option.elim_some, hinput]
  refine ⟨⟨hD.fresh, fun u y hu => ?_, hD.typed, hD.plain, hD.noProcess⟩, fun n => ?_, fun n => ?_,
    fun n => ?_, rfl, fun u y hu => ?_, le_refl _⟩
  · by_cases hut : u = t
    · exact hut ▸ hD.freshT t x hx
    · exact hD.freshT u y ((update_of_ne hut ..).symm.trans hu)
  · rw [Pi.zero_apply, add_zero]
    rfl
  · have h := Heap.total_update (w := fun x : Atransport => occurrences n x.toMain)
      (S := D.transports) (hD.freshT t x hx) (some x')
    rw [hx] at h
    have h' : (D.setTransport t x').incoming n + occurrences n x.toMain =
        D.incoming n + occurrences n x'.toMain := h
    have hle := hmain n
    omega
  · rw [hsame]
    exact le_refl _
  · by_cases hut : u = t
    · subst hut
      cases (update_self ..).symm.trans hu
      exact ⟨x, hx, by rw [hinput]; exact le_refl _⟩
    · exact ⟨y, (update_of_ne hut ..).symm.trans hu, le_refl _⟩

lemma setTransport (hD : D.Sane) (hx : D.transports t = some x) (hmain : x'.toMain = x.toMain)
    (hinput : x'.toInput = x.toInput) : Books 0 0 D (D.setTransport t x') :=
  assignT hD hx (fun _ => by rw [hmain]) hinput

/-- A transport is freed, with the packets on their way. -/
lemma freeTransport (hD : D.Sane) (t : TAddr) :
    Books 0 0 D { D with transports := update D.transports t none } := by
  have hle : ∀ w : Atransport → ℕ,
      Heap.total w (update D.transports t none) D.nextTAddr ≤
        Heap.total w D.transports D.nextTAddr := by
    intro w
    cases hx : D.transports t with
    | none =>
      apply Nat.le_of_eq
      refine Heap.total_update_same ?_
      rw [hx]
    | some x =>
      have h := Heap.total_update (w := w) (S := D.transports) (hD.freshT t x hx) none
      have hnone : Heap.weigh w none = 0 := rfl
      omega
  have hleft : ∀ u y, update D.transports t none u = some y → D.transports u = some y := by
    intro u y hu
    by_cases hut : u = t
    · rw [hut, update_self] at hu
      cases hu
    · exact (update_of_ne hut ..).symm.trans hu
  refine ⟨⟨hD.fresh, fun u y hu => hD.freshT u y (hleft u y hu), hD.typed, hD.plain, hD.noProcess⟩,
    fun n => ?_, fun n => hle _, fun n => ?_, rfl, fun u y hu => ⟨y, hleft u y hu, le_refl _⟩,
    le_refl _⟩
  · rw [Pi.zero_apply, add_zero]
    rfl
  · exact Nat.add_le_add_right (hle _) _

/-- The write of `send_packet`. -/
lemma send (hD : D.Sane) (hx : D.transports t = some x) (via : Option Addr) (p : Apacket) :
    Books (Pi.single p.addr 1) 1 D
      ((D.setTransport t { x with toInput := x.toInput ++ [p] }).emit (.sent t via p)) := by
  set D' := (D.setTransport t { x with toInput := x.toInput ++ [p] }).emit (.sent t via p)
  have hhanded : ∀ n, D'.handedOn n = D.handedOn n + occurrences n [p] := fun n => by
    rw [Daemon.handedOn, Daemon.handedOn, occurrences, List.countP_cons, List.countP_nil]
    simp [D', Daemon.emit, Daemon.setTransport, List.countP_cons, Obs.handsOn]
  have houtgoing : ∀ n, D'.outgoing n = D.outgoing n + occurrences n [p] := fun n => by
    have h := Heap.total_update (w := fun x : Atransport => occurrences n x.toInput)
      (S := D.transports) (hD.freshT t x hx) (some { x with toInput := x.toInput ++ [p] })
    rw [hx] at h
    have happend := occurrences_append n x.toInput [p]
    have h' : D'.outgoing n + occurrences n x.toInput =
        D.outgoing n + occurrences n (x.toInput ++ [p]) := h
    omega
  refine ⟨⟨hD.fresh, fun u y hu => ?_, hD.typed, hD.plain, hD.noProcess⟩, fun n => ?_, fun n => ?_,
    fun n => ?_, rfl, fun u y hu => ?_, le_refl _⟩
  · by_cases hut : u = t
    · exact hut ▸ hD.freshT t x hx
    · exact hD.freshT u y ((update_of_ne hut ..).symm.trans hu)
  · have hrest : D'.linked n = D.linked n ∧ D'.released n = D.released n ∧
        D'.unused n = D.unused n := ⟨rfl, rfl, rfl⟩
    rw [Daemon.account, Daemon.account, hhanded, ← occurrences_singleton]
    omega
  · apply Nat.le_of_eq
    refine Heap.total_update_same ?_
    rw [hx]
    rfl
  · rw [houtgoing, hhanded]
    omega
  · by_cases hut : u = t
    · subst hut
      cases (update_self ..).symm.trans hu
      exact ⟨x, hx, by simp⟩
    · exact ⟨y, (update_of_ne hut ..).symm.trans hu, Nat.le_succ _⟩

/-! ### Packets -/

lemma getApacket (hD : D.Sane) : Books (Pi.single D.nextPacket (-1)) 0 D D.getApacket.2 := by
  refine ⟨⟨hD.fresh, hD.freshT, hD.typed, hD.plain, hD.noProcess⟩, fun n => ?_, fun _ => le_refl _,
    fun _ => le_refl _, rfl, fun t x hx => ⟨x, hx, le_refl _⟩, Nat.le_succ _⟩
  have hrest : D.getApacket.2.linked n = D.linked n ∧ D.getApacket.2.released n = D.released n ∧
      D.getApacket.2.handedOn n = D.handedOn n := ⟨rfl, rfl, rfl⟩
  have hunused : D.getApacket.2.unused n = if n < D.nextPacket + 1 then 0 else 1 := rfl
  rw [Daemon.account, Daemon.account, hunused, Daemon.unused, Pi.single_apply]
  split_ifs <;> omega

lemma putApacket (hD : D.Sane) (p : Apacket) :
    Books (Pi.single p.addr 1) 0 D (D.putApacket p) := by
  refine ⟨⟨hD.fresh, hD.freshT, hD.typed, hD.plain, hD.noProcess⟩, fun n => ?_, fun _ => le_refl _,
    fun _ => le_refl _, rfl, fun t x hx => ⟨x, hx, le_refl _⟩, le_refl _⟩
  have hrest : (D.putApacket p).linked n = D.linked n ∧
      (D.putApacket p).unused n = D.unused n := ⟨rfl, rfl⟩
  have hhanded : (D.putApacket p).handedOn n = D.handedOn n := rfl
  have hreleased : (D.putApacket p).released n =
      D.released n + if p.addr = n then 1 else 0 := by
    rw [Daemon.released, Daemon.released]
    simp [Daemon.putApacket, Daemon.emit, List.countP_cons, Obs.releases]
  rw [Daemon.account, Daemon.account, hreleased, hhanded, Pi.single_apply]
  split_ifs <;> omega

lemma putApackets (hD : D.Sane) (ps : List Apacket) :
    Books (fun n => (occurrences n ps : ℤ)) 0 D (D.putApackets ps) := by
  induction ps generalizing D with
  | nil => exact refl hD
  | cons p ps ih =>
    have hput := putApacket hD p
    refine (hput.trans (ih hput.sane)).mono ?_ (le_refl _)
    funext n
    have happend := occurrences_append n [p] ps
    rw [List.singleton_append] at happend
    rw [Pi.add_apply, ← occurrences_singleton, happend]
    omega

end Books

end Elementary

end Adbd
