import Adbd.Effects.Data
import Adbd.Model.PacketQueue

/-!
# Host-to-service byte integrity (`sockets.c`)

Whatever `adb_write` does, a socket's descriptor gets the payloads of its packets in order and
once: what has been written, followed by what is left in the queue, is what has arrived.  The
pointers are in order throughout: the chain from `pkt_first` spells the queue, `pkt_last` is its
last element, and `FDE_WRITE` is subscribed exactly while there is something to write.

The one thing that goes to the descriptor out of this order is the status text that
`local_socket_close_notify` writes for the client of a smart socket.
-/

namespace Adbd

namespace QueueIntegrity

open Function Transition FlagWord Syscall Daemon

/-! ## Chains -/

/-- The cells from `a` on hold the packets `ps`. -/
def Chain (heap : ℕ → Option PktCell) : Option ℕ → List Apacket → Prop
  | a, [] => a = none
  | a, p :: ps => ∃ next, a = some p.addr ∧ heap p.addr = some ⟨p, next⟩ ∧ Chain heap next ps

/-- The queue is the list `ps`. -/
structure Represents (q : PktQueue) (ps : List Apacket) : Prop where
  chain : Chain q.heap q.pktFirst ps
  nodup : (ps.map Apacket.addr).Nodup
  last : q.pktLast = ps.getLast?.map Apacket.addr

variable {heap : ℕ → Option PktCell} {q : PktQueue} {ps : List Apacket} {a : ℕ} {p : Apacket}

/-- Cells outside the chain do not matter. -/
lemma Chain.update_other {first : Option ℕ} {c : Option PktCell} (h : Chain heap first ps)
    (ha : a ∉ ps.map Apacket.addr) : Chain (update heap a c) first ps := by
  induction ps generalizing first with
  | nil => exact h
  | cons p ps ih =>
    obtain ⟨next, hfirst, hcell, hrest⟩ := h
    rw [List.map_cons, List.mem_cons, not_or] at ha
    refine ⟨next, hfirst, ?_, ih hrest ha.2⟩
    rw [update_of_ne (Ne.symm ha.1)]
    exact hcell

/-- The packets of a chain are on the heap. -/
lemma Chain.live {first : Option ℕ} (h : Chain heap first ps) (ha : a ∈ ps.map Apacket.addr) :
    (heap a).isSome := by
  induction ps generalizing first with
  | nil => cases ha
  | cons p ps ih =>
    obtain ⟨next, -, hcell, hrest⟩ := h
    rw [List.map_cons, List.mem_cons] at ha
    rcases ha with rfl | ha
    · rw [hcell]
      rfl
    · exact ih hrest ha

lemma Chain.first_isNone {first : Option ℕ} (h : Chain heap first ps) :
    first.isNone = ps.isEmpty := by
  cases ps with
  | nil => rw [show first = none from h]; rfl
  | cons p ps =>
    obtain ⟨next, rfl, -⟩ := h
    rfl

/-- Hanging a packet on the last cell of a chain. -/
lemma Chain.append {first : Option ℕ} {l : ℕ} {c : PktCell} (h : Chain heap first ps)
    (hnodup : (ps.map Apacket.addr).Nodup) (hlast : ps.getLast?.map Apacket.addr = some l)
    (hl : heap l = some c) (hp : heap p.addr = some ⟨p, none⟩)
    (hnew : p.addr ∉ ps.map Apacket.addr) :
    Chain (update heap l (some { c with next := some p.addr })) first (ps ++ [p]) := by
  induction ps generalizing first with
  | nil => cases hlast
  | cons r ps ih =>
    obtain ⟨next, hfirst, hcell, hrest⟩ := h
    rw [List.map_cons, List.nodup_cons] at hnodup
    rw [List.map_cons, List.mem_cons, not_or] at hnew
    cases ps with
    | nil =>
      rw [List.getLast?_singleton, Option.map_some, Option.some.injEq] at hlast
      subst hlast
      rw [hcell, Option.some.injEq] at hl
      refine ⟨some p.addr, hfirst, ?_, ⟨none, rfl, ?_, rfl⟩⟩
      · rw [update_self, ← hl]
      · rw [update_of_ne hnew.1]
        exact hp
    | cons r' ps =>
      rw [List.getLast?_cons_cons] at hlast
      have hmem : l ∈ (r' :: ps).map Apacket.addr := by
        obtain ⟨z, hz, rfl⟩ := Option.map_eq_some_iff.mp hlast
        exact List.mem_map_of_mem (List.mem_of_getLast? hz)
      have hne : r.addr ≠ l := fun heq => hnodup.1 (heq ▸ hmem)
      refine ⟨next, hfirst, ?_, ih hrest hnodup.2 hlast hnew.2⟩
      rw [update_of_ne hne]
      exact hcell

/-! ## The operations on the queue refine those on the list -/

/-- `p->next=0` on an empty queue. -/
lemma link_empty {c : PktCell} (hc : q.heap a = some c) (hfirst : q.pktFirst = none) :
    q.link a = .ok { q.setCell a { c with next := none } with
      pktFirst := some a, pktLast := some a } := by
  simp [PktQueue.link, PktQueue.cell, PktQueue.setCell, hc, hfirst, bind, Except.bind, pure,
    Except.pure]

/-- The packet is hung on the last one. -/
lemma link_behind {b l : ℕ} {c d : PktCell} (hc : q.heap a = some c) (hfirst : q.pktFirst = some b)
    (hl : q.pktLast = some l) (hne : l ≠ a) (hd : q.heap l = some d) :
    q.link a = .ok { (q.setCell a { c with next := none }).setCell l { d with next := some a } with
      pktLast := some a } := by
  simp [PktQueue.link, PktQueue.cell, PktQueue.setCell, hc, hfirst, hl, hd, hne, bind, Except.bind,
    pure, Except.pure]

/-- Linking a packet that is not in the queue appends it. -/
lemma link_represents (h : Represents q ps) (hnew : p.addr ∉ ps.map Apacket.addr) :
    ∃ q', (q.setCell p.addr { pkt := p }).link p.addr = .ok q' ∧
      Represents q' (ps ++ [p]) := by
  have hcell : (q.setCell p.addr { pkt := p }).heap p.addr = some ⟨p, none⟩ := update_self ..
  have hself : ((q.setCell p.addr { pkt := p }).setCell p.addr ⟨p, none⟩) =
      q.setCell p.addr ⟨p, none⟩ := by
    simp [PktQueue.setCell]
  have hchain : Chain (update q.heap p.addr (some ⟨p, none⟩)) q.pktFirst ps :=
    h.chain.update_other hnew
  have hnodup : ((ps ++ [p]).map Apacket.addr).Nodup := by
    rw [List.map_append, List.nodup_append]
    refine ⟨h.nodup, List.pairwise_singleton _ _, ?_⟩
    intro b hb c hc heq
    rw [List.map_singleton, List.mem_singleton] at hc
    exact hnew (hc ▸ heq ▸ hb)
  have hlast : (ps ++ [p]).getLast?.map Apacket.addr = some p.addr := by simp
  cases ps with
  | nil =>
    have hlink := link_empty hcell h.chain
    rw [hself] at hlink
    exact ⟨_, hlink, ⟨none, rfl, update_self .., rfl⟩, hnodup, hlast.symm⟩
  | cons r ps =>
    obtain ⟨next, hfirst, -, -⟩ := id h.chain
    have hl : ∃ l, q.pktLast = some l := by
      rw [h.last, List.getLast?_cons]
      exact ⟨_, rfl⟩
    obtain ⟨l, hl⟩ := hl
    have hlastl : (r :: ps).getLast?.map Apacket.addr = some l := h.last.symm.trans hl
    have hmem : l ∈ (r :: ps).map Apacket.addr := by
      obtain ⟨z, hz, rfl⟩ := Option.map_eq_some_iff.mp hlastl
      exact List.mem_map_of_mem (List.mem_of_getLast? hz)
    have hne : l ≠ p.addr := fun heq => hnew (heq ▸ hmem)
    obtain ⟨c, hc⟩ := Option.isSome_iff_exists.mp (hchain.live hmem)
    have hlink := link_behind hcell hfirst hl hne hc
    rw [hself] at hlink
    refine ⟨_, hlink, ?_, hnodup, hlast.symm⟩
    exact hchain.append h.nodup hlastl hc (update_self ..) hnew

/-- Taking a packet off the front. -/
lemma unlinkFirst_represents {c : PktCell} (h : Represents q (p :: ps))
    (hc : q.heap p.addr = some c) (p' : Apacket) :
    Represents (q.unlinkFirst p.addr { c with pkt := p' }) ps := by
  obtain ⟨next, hfirst, hcell, hrest⟩ := h.chain
  have hnodup := h.nodup
  rw [List.map_cons, List.nodup_cons] at hnodup
  rw [hcell, Option.some.injEq] at hc
  subst hc
  refine ⟨hrest.update_other hnodup.1, hnodup.2, ?_⟩
  show (if next.isNone then none else q.pktLast) = _
  rw [hrest.first_isNone, h.last]
  cases ps with
  | nil => rfl
  | cons r ps => rw [List.getLast?_cons_cons]; rfl

/-- Rewriting the packet at the front. -/
lemma setFirst_represents {c : PktCell} {p' : Apacket} (h : Represents q (p :: ps))
    (hc : q.heap p.addr = some c) (haddr : p'.addr = p.addr) :
    Represents (q.setCell p.addr { c with pkt := p' }) (p' :: ps) := by
  obtain ⟨next, hfirst, hcell, hrest⟩ := h.chain
  have hnodup := h.nodup
  rw [List.map_cons, List.nodup_cons] at hnodup
  rw [hcell, Option.some.injEq] at hc
  subst hc
  refine ⟨⟨next, ?_, ?_, hrest.update_other hnodup.1⟩, ?_, ?_⟩
  · rw [haddr]
    exact hfirst
  · rw [haddr]
    exact update_self ..
  · rw [List.map_cons, haddr, List.nodup_cons]
    exact hnodup
  · rw [show (q.setCell p.addr ⟨p', next⟩).pktLast = q.pktLast from rfl, h.last]
    cases ps with
    | nil => simp [haddr]
    | cons r ps => simp [List.getLast?_cons_cons]

/-- Draining the chain drains the list it spells, and never runs out of iterations. -/
lemma drain_represents {fuel : ℕ} (ws : List WriteResult) (h : Represents q ps)
    (hfuel : ps.length ≤ fuel) : ∃ q', q.drain fuel ws = .ok (q', (Daemon.drain ps ws).written,
      (Daemon.drain ps ws).ended, (Daemon.drain ps ws).writes) ∧
      Represents q' (Daemon.drain ps ws).pkts := by
  induction ps generalizing fuel ws q with
  | nil =>
    have hfirst : q.pktFirst = none := h.chain
    refine ⟨q, ?_, h⟩
    unfold PktQueue.drain
    rw [hfirst]
    rfl
  | cons p ps ih =>
    obtain ⟨next, hfirst, hcell, -⟩ := id h.chain
    obtain ⟨n, rfl⟩ : ∃ n, fuel = n + 1 := ⟨fuel - 1, by rw [List.length_cons] at hfuel; omega⟩
    have hcellEq : q.cell p.addr = .ok ⟨p, next⟩ := by rw [PktQueue.cell, hcell]
    unfold PktQueue.drain Daemon.drain
    simp only [hfirst, hcellEq, bind, Except.bind]
    generalize writeLoop p.remaining ws = written
    obtain ⟨out, w, ws'⟩ := written
    cases w with
    | done =>
      have hrest := unlinkFirst_represents h hcell (advance p out.length)
      have hn : ps.length ≤ n := by
        rw [List.length_cons] at hfuel
        omega
      obtain ⟨q', hq', hrep⟩ := ih ws' hrest hn
      refine ⟨q', ?_, hrep⟩
      simp only [hq']
      rfl
    | again =>
      exact ⟨_, rfl, setFirst_represents h hcell rfl⟩
    | failed =>
      exact ⟨_, rfl, setFirst_represents h hcell rfl⟩

/-! ## The socket -/

variable {k : FdeId} {s s' : FdSocket}

/-- The pointers spell a queue; what was written of the packets, followed by what is left of
them, is what arrived; and `FDE_WRITE` is subscribed exactly when something is left. -/
def InOrder (k : FdeId) (s : FdSocket) : Prop :=
  ∃ ps, Represents s.queue ps ∧ s.written ++ ps.flatMap Apacket.remaining = s.arrived ∧
    (has (s.loop.mem k).state fdeWrite = true ↔ ps ≠ [])

/-- As `InOrder`, with the list given, and the count of linked packets as a bound. -/
structure Holds (k : FdeId) (s : FdSocket) (ps : List Apacket) : Prop where
  queue : Represents s.queue ps
  bound : ps.length ≤ s.linked
  bytes : s.written ++ ps.flatMap Apacket.remaining = s.arrived
  subscribed : has (s.loop.mem k).state fdeWrite = true ↔ ps ≠ []

lemma Holds.inOrder (h : Holds k s ps) : InOrder k s := ⟨ps, h.queue, h.bytes, h.subscribed⟩

/-- Changing the subscription to read events leaves the one to write events. -/
lemma write_of_setSpec {ev : BitVec 16} {L L' : Loop FdeId} (h : Loop.SetSpec k ev L L')
    (hev : has ev fdeWrite = has (L.mem k).state fdeWrite) :
    has (L'.mem k).state fdeWrite = has (L.mem k).state fdeWrite := by
  rw [has_congr h.low (by decide), hev]

lemma addRead_write {L L' : Loop FdeId} (h : L.fdeventAdd k fdeRead = .ok L') :
    has (L'.mem k).state fdeWrite = has (L.mem k).state fdeWrite := by
  refine write_of_setSpec (Loop.fdeventSet_spec h) ?_
  rw [Loop.has_add (by decide), show has fdeRead fdeWrite = false by decide, Bool.or_false]

lemma delRead_write {L L' : Loop FdeId} (h : L.fdeventDel k fdeRead = .ok L') :
    has (L'.mem k).state fdeWrite = has (L.mem k).state fdeWrite :=
  write_of_setSpec (Loop.fdeventSet_spec h) (Loop.has_del_of_disjoint (by decide) (by decide))

lemma addWrite_write {L L' : Loop FdeId} (h : L.fdeventAdd k fdeWrite = .ok L') :
    has (L'.mem k).state fdeWrite = true := by
  rw [has_congr (Loop.fdeventSet_spec h).low (by decide), Loop.has_add (by decide),
    show has fdeWrite fdeWrite = true by decide, Bool.or_true]

lemma delWrite_write {L L' : Loop FdeId} (h : L.fdeventDel k fdeWrite = .ok L') :
    has (L'.mem k).state fdeWrite = false := by
  rw [has_congr (Loop.fdeventSet_spec h).low (by decide)]
  exact Loop.has_del_self (by decide)

/-- A close that does not destroy the socket leaves its queue alone. -/
lemma close_holds {ws : List WriteResult} (h : Holds k s ps)
    (hstep : s.close k ws = .ok (some s')) : Holds k s' ps := by
  have hrest : ∀ z : FdSocket, Holds k z ps →
      (if z.closing || z.queue.pktFirst.isNone then pure none
        else do
          let L ← z.loop.fdeventDel k fdeRead
          pure (some { z with closing := true, loop := L })) = Except.ok (some s') →
      Holds k s' ps := by
    intro z hz hstep
    split at hstep
    · cases hstep
    · rw [bind_eq_ok_iff] at hstep
      obtain ⟨L, hL, hstep⟩ := hstep
      cases hstep
      refine ⟨hz.queue, hz.bound, hz.bytes, ?_⟩
      show has (L.mem k).state fdeWrite = true ↔ _
      rw [delRead_write hL]
      exact hz.subscribed
  rw [FdSocket.close] at hstep
  split at hstep
  · exact hrest { s with notify := false, output := s.output ++ failmsgBytes "closed" ws }
      ⟨h.queue, h.bound, h.bytes, h.subscribed⟩ hstep
  · exact hrest s h hstep

lemma ready_holds {ws : List WriteResult} (h : Holds k s ps)
    (hstep : s.ready k ws = .ok (some s')) : Holds k s' ps := by
  have hrest : ∀ z : FdSocket, Holds k z ps →
      (do
        let L ← z.loop.fdeventAdd k fdeRead
        pure (some { z with loop := L })) = Except.ok (some s') →
      Holds k s' ps := by
    intro z hz hstep
    rw [bind_eq_ok_iff] at hstep
    obtain ⟨L, hL, hstep⟩ := hstep
    cases hstep
    refine ⟨hz.queue, hz.bound, hz.bytes, ?_⟩
    show has (L.mem k).state fdeWrite = true ↔ _
    rw [addRead_write hL]
    exact hz.subscribed
  rw [FdSocket.ready] at hstep
  split at hstep
  · exact hrest
      { s with notify := false, output := s.output ++ (writeSome (str "OKAY") ws).1.getD [] }
      ⟨h.queue, h.bound, h.bytes, h.subscribed⟩ hstep
  · exact hrest s h hstep

/-- Linking a packet to a queue that is in order, except that the packet is not in it yet. -/
lemma linkPacket_holds (hq : Represents s.queue ps) (hb : ps.length ≤ s.linked)
    (hnew : p.addr ∉ ps.map Apacket.addr)
    (hbytes : s.written ++ (ps.flatMap Apacket.remaining ++ p.remaining) = s.arrived)
    (hstep : s.linkPacket k p = .ok (some s')) : Holds k s' (ps ++ [p]) := by
  obtain ⟨q', hlink, hrep⟩ := link_represents hq hnew
  rw [FdSocket.linkPacket, hlink] at hstep
  change (s.loop.fdeventAdd k fdeWrite >>= _) = _ at hstep
  rw [bind_eq_ok_iff] at hstep
  obtain ⟨L, hL, hstep⟩ := hstep
  cases hstep
  refine ⟨hrep, ?_, ?_, ?_⟩
  · show (ps ++ [p]).length ≤ s.linked + 1
    rw [List.length_append, List.length_singleton]
    omega
  · rw [List.flatMap_append, List.flatMap_singleton]
    exact hbytes
  · constructor
    · intro _ hnil
      simp at hnil
    · intro _
      exact addWrite_write hL

lemma enqueue_holds {ws : List WriteResult} (h : Holds k s ps)
    (hfresh : (s.queue.heap p.addr).isSome = false)
    (hstep : s.enqueue k p ws = .ok (some s')) : ∃ ps', Holds k s' ps' := by
  have hnew : p.addr ∉ ps.map Apacket.addr := by
    intro hmem
    rw [h.queue.chain.live hmem] at hfresh
    cases hfresh
  rw [FdSocket.enqueue] at hstep
  simp only at hstep
  split at hstep
  · -- behind what is queued already
    refine ⟨_, linkPacket_holds
      (s := { s with arrived := s.arrived ++ Apacket.remaining { p with ptr := 0 } })
      (p := { p with ptr := 0 }) h.queue h.bound hnew ?_ hstep⟩
    show s.written ++ (_ ++ _) = s.arrived ++ _
    rw [← List.append_assoc, h.bytes]
  case isFalse hfirst =>
    have hnil : ps = [] := by
      have hiso := h.queue.chain.first_isNone
      rw [Bool.not_eq_true, Option.isSome_eq_false_iff] at hfirst
      rw [hfirst] at hiso
      exact List.isEmpty_iff.mp hiso.symm
    subst hnil
    have hbytes : s.written = s.arrived := by simpa using h.bytes
    have hoff : has (s.loop.mem k).state fdeWrite = false := by
      by_contra hon
      rw [Bool.not_eq_false] at hon
      exact h.subscribed.mp hon rfl
    rcases hw : writeLoop (Apacket.remaining { p with ptr := 0 }) ws with ⟨out, w, ws'⟩
    obtain ⟨hout, hdone⟩ := remaining_writeLoop hw
    simp only [hw] at hstep
    cases w with
    | done =>
      cases hstep
      rw [hdone.mp rfl, List.append_nil] at hout
      refine ⟨[], h.queue, h.bound, ?_, ?_⟩
      · show (s.written ++ out) ++ [] = s.arrived ++ _
        rw [List.append_nil, hbytes, hout]
      · show has (s.loop.mem k).state fdeWrite = true ↔ _
        simp [hoff]
    | again =>
      have hrep : Represents (FdSocket.wrote out
          { s with arrived := s.arrived ++ Apacket.remaining { p with ptr := 0 } }).queue [] :=
        h.queue
      refine ⟨_, linkPacket_holds hrep h.bound (by simp) ?_ hstep⟩
      show (s.written ++ out) ++ ([] ++ _) = s.arrived ++ _
      rw [List.nil_append, List.append_assoc, ← hout, hbytes]
    | failed =>
      -- with nothing queued the socket is destroyed
      have hnone : s.queue.pktFirst.isNone = true := by simpa using hfirst
      simp only [FdSocket.close] at hstep
      have hdead : ∀ z : FdSocket, z.queue = s.queue →
          (z.closing || z.queue.pktFirst.isNone) = true := by
        intro z hz
        rw [hz, hnone, Bool.or_true]
      rw [if_pos (hdead _ (by split <;> rfl))] at hstep
      cases hstep

lemma writable_holds {ws : List WriteResult} (h : Holds k s ps)
    (hstep : s.writable k ws = .ok (some s')) : ∃ ps', Holds k s' ps' := by
  obtain ⟨q', hdrain, hrep⟩ := drain_represents ws h.queue h.bound
  obtain ⟨hout, hdone⟩ := drain_spec ps ws
  have hlen := drain_length ps ws
  generalize Daemon.drain ps ws = d at hdrain hrep hout hdone hlen
  rw [FdSocket.writable, hdrain] at hstep
  have hbytes : (s.written ++ d.written) ++ d.pkts.flatMap Apacket.remaining = s.arrived := by
    rw [List.append_assoc, hout]
    exact h.bytes
  have hstay : d.ended ≠ .done →
      Holds k (({ s with queue := q' } : FdSocket).wrote d.written) d.pkts := by
    intro hend
    have hleft : d.pkts ≠ [] := fun hnil => hend (hdone.mpr hnil)
    have hps : ps ≠ [] := by
      rintro rfl
      simp only [List.length_nil, Nat.le_zero_eq, List.length_eq_zero_iff] at hlen
      exact hleft hlen
    refine ⟨hrep, hlen.trans h.bound, hbytes, ?_⟩
    show has (s.loop.mem k).state fdeWrite = true ↔ _
    simp [h.subscribed.mpr hps, hleft]
  simp only [bind, Except.bind] at hstep
  cases hend : d.ended with
  | again =>
    rw [hend] at hstep
    cases hstep
    exact ⟨_, hstay (by rw [hend]; simp)⟩
  | failed =>
    rw [hend] at hstep
    exact ⟨_, close_holds (hstay (by rw [hend]; simp)) hstep⟩
  | done =>
    have hnil := hdone.mp hend
    rw [hend] at hstep
    simp only at hstep
    rw [hnil] at hrep hbytes
    split at hstep
    · -- a socket that was flushing is done with it
      have hnone : q'.pktFirst.isNone = true := hrep.chain.first_isNone
      rw [FdSocket.close, if_pos] at hstep
      · cases hstep
      · have hq : ∀ z : FdSocket, z.queue = q' →
            (z.closing || z.queue.pktFirst.isNone) = true := by
          intro z hz
          rw [hz, hnone, Bool.or_true]
        exact hq _ (by split <;> rfl)
    · cases hdel : s.loop.fdeventDel k fdeWrite with
      | error r =>
        simp only [FdSocket.wrote, hdel] at hstep
        cases hstep
      | ok L =>
        simp only [FdSocket.wrote, hdel] at hstep
        cases hstep
        refine ⟨[], hrep, Nat.zero_le _, hbytes, ?_⟩
        show has (L.mem k).state fdeWrite = true ↔ _
        simp [delWrite_write hdel]

/-! ## Runs -/

/-- Every operation keeps the queue in order, or destroys the socket. -/
lemma queueStep_holds {o : QueueOp} (h : Holds k s ps)
    (hstep : queueStep k o (some s) = .ok (some s')) : ∃ ps', Holds k s' ps' := by
  cases o with
  | enqueue p ws =>
    rw [queueStep] at hstep
    split at hstep
    · cases hstep
    case isFalse hfresh =>
      rw [Bool.not_eq_true] at hfresh
      exact enqueue_holds h hfresh hstep
  | writable ws => exact writable_holds h hstep
  | ready ws => exact ⟨ps, ready_holds h hstep⟩
  | close ws => exact ⟨ps, close_holds h hstep⟩
  | pause =>
    rw [queueStep, bind_eq_ok_iff] at hstep
    obtain ⟨L, hL, hstep⟩ := hstep
    cases hstep
    refine ⟨ps, h.queue, h.bound, h.bytes, ?_⟩
    show has (L.mem k).state fdeWrite = true ↔ _
    rw [delRead_write hL]
    exact h.subscribed

/-- The queue is in order unless the socket has been destroyed. -/
def Inv (k : FdeId) (z : Option FdSocket) : Prop := ∀ s, z = some s → ∃ ps, Holds k s ps

lemma queueStep_inv (o : QueueOp) (z z' : Option FdSocket) (hz : Inv k z)
    (hstep : queueStep k o z = .ok z') : Inv k z' := by
  rintro s' rfl
  cases z with
  | none => cases o <;> cases hstep
  | some s =>
    obtain ⟨ps, hps⟩ := hz s rfl
    exact queueStep_holds hps hstep

/-- In every run of a socket created by `create_local_socket`, with either kind of `close`, the
queue is in order until the socket is destroyed. -/
theorem queue_inOrder {fd : ℕ} {notify : Bool} {L₀ L : Loop FdeId} {os : List QueueOp}
    (hinstall : L₀.fdeventInstall k fd = .ok L)
    (hrun : run (queueStep k) os (some { loop := L, notify := notify }) = .ok (some s)) :
    InOrder k s := by
  have hstart : Holds k { loop := L, notify := notify } [] := by
    refine ⟨⟨rfl, List.nodup_nil, rfl⟩, Nat.le_refl _, rfl, ?_⟩
    obtain ⟨U, M, rfl, -⟩ := Loop.fdeventInstall_ok hinstall
    show has ((L₀.setMem k _).mem k).state fdeWrite = true ↔ _
    rw [Loop.setMem_mem_self]
    simp [show has fdeActive fdeWrite = false by decide]
  have hinv : Inv k (some s) := run_invariant (fun o z z' hz _ => queueStep_inv o z z' hz)
    (fun _ hs => by cases hs; exact ⟨[], hstart⟩) along_true hrun
  obtain ⟨ps, hps⟩ := hinv s rfl
  exact hps.inOrder

/-! ## Two packets, and a status text -/

/-- A loop with one open descriptor. -/
def idleLoop : Loop FdeId where
  mem := fun _ => {}
  listPending := []
  fdTable := fun _ => .null
  fdTableMax := 0
  fill := fun _ => .null
  inUse := fun n => n = 12
  interest := fun _ => none

def ping : Apacket :=
  { addr := 7
    len := 4
    msg := { command := aWrte, dataLength := 4 }
    data := str "ping" }

/-- The first packet is written in part, the second is linked behind it, and the descriptor
accepts the first and a byte of the second. -/
def partialOps : List QueueOp :=
  [.enqueue ping [.wrote 1, .again], .enqueue { ping with addr := 8 } [],
    .writable [.wrote 3, .wrote 1, .again]]

/-- A run of a client of a smart socket on descriptor 12, up to what `f` tells of its end. -/
def runClient {α : Type} (os : List QueueOp) (f : FdSocket → α) : Except Stop (Option α) := do
  let L ← idleLoop.fdeventInstall (.socket 0) 12
  let z ← run (queueStep (.socket 0)) os (some { loop := L, notify := true })
  pure (z.map f)

lemma runClient_eq {α : Type} {os : List QueueOp} {f : FdSocket → α} {x : α}
    (h : runClient os f = .ok (some x)) :
    ∃ L s, idleLoop.fdeventInstall (.socket 0) 12 = .ok L ∧
      run (queueStep (.socket 0)) os (some { loop := L, notify := true }) = .ok (some s) ∧
      f s = x := by
  rw [runClient, bind_eq_ok_iff] at h
  obtain ⟨L, hL, h⟩ := h
  rw [bind_eq_ok_iff] at h
  obtain ⟨z, hz, h⟩ := h
  cases z with
  | none => cases h
  | some s =>
    cases h
    exact ⟨L, s, hL, hz, rfl⟩

theorem queue_inOrder_partial : ∃ L s, idleLoop.fdeventInstall (.socket 0) 12 = .ok L ∧
    run (queueStep (.socket 0)) partialOps (some { loop := L, notify := true }) = .ok (some s) ∧
    s.written = str "pingp" ∧ InOrder (.socket 0) s := by
  have hrun : runClient partialOps FdSocket.written = .ok (some (str "pingp")) := by decide +kernel
  obtain ⟨L, s, hinstall, hrun, hwritten⟩ := runClient_eq hrun
  exact ⟨L, s, hinstall, hrun, hwritten, queue_inOrder hinstall hrun⟩

/-- The client of a smart socket, with a packet that its descriptor does not take at once.  The
next write fails, but the status text after it goes through, in front of the packet. -/
def closedOps : List QueueOp :=
  [.enqueue ping [.again], .writable [.fail, .wrote 8, .wrote 6]]

theorem output_not_inOrder : ∃ L s, idleLoop.fdeventInstall (.socket 0) 12 = .ok L ∧
    run (queueStep (.socket 0)) closedOps (some { loop := L, notify := true }) = .ok (some s) ∧
    ¬∃ ps, Represents s.queue ps ∧ s.output ++ ps.flatMap Apacket.remaining = s.arrived := by
  have hrun : runClient closedOps (fun s => (s.output, s.arrived)) =
      .ok (some (str "FAIL0006closed", str "ping")) := by decide +kernel
  obtain ⟨L, s, hinstall, hrun, hs⟩ := runClient_eq hrun
  rw [Prod.mk.injEq] at hs
  refine ⟨L, s, hinstall, hrun, ?_⟩
  rintro ⟨ps, -, hbytes⟩
  rw [hs.1, hs.2] at hbytes
  have hlen := congrArg List.length hbytes
  rw [List.length_append] at hlen
  exact absurd (Nat.le.intro hlen) (by decide)

end QueueIntegrity

end Adbd
