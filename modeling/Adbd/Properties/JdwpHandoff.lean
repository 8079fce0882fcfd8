import Adbd.Framework.History
import Adbd.Model.JdwpService
import Mathlib.Data.List.Nodup

/-!
# Descriptors for JDWP processes

`create_jdwp_connection_fd` queues one end of a socket pair for a process, in an array of four
with a count of its own, and `FDE_WRITE` events pass the queue on.  The count, the subscription
and the order are right in every run.  Two things are not.

The process is looked up by its pid, and a process that has not said its pid yet has `-1`: a
request `jdwp:-1` is queued for the first of these.  And when the descriptor has been sent and
closed and the queue has moved up, a failure to restore the flags of the socket frees the process
before the count is lowered, so that the last descriptor of the old queue is closed again.
-/

namespace Adbd

open Function History Transition Syscall Daemon

namespace JdwpProcess

/-! ## The queue of a process -/

variable {p : JdwpProcess}

lemma some_getD {fds : List ℕ} {n : ℕ} (h : n < fds.length) : some (fds.getD n 0) = fds[n]? := by
  rw [List.getD_eq_getElem?_getD, List.getElem?_eq_getElem h]
  rfl

/-- The array after the loop. -/
lemma getElem?_shiftFds {n k : ℕ} {fds : List ℕ} (hn : 1 ≤ n) (hk : n + k ≤ fds.length) (i : ℕ) :
    (shiftFds n k fds)[i]? = if n - 1 ≤ i ∧ i < n - 1 + k then fds[i + 1]? else fds[i]? := by
  induction k generalizing n fds with
  | zero => rw [shiftFds, if_neg (by omega)]
  | succ k ih =>
    rw [shiftFds, ih (by omega) (by rw [List.length_set]; omega), List.getElem?_set,
      List.getElem?_set]
    have hget : some (fds.getD n 0) = fds[n]? := some_getD (by omega)
    by_cases hi : i = n - 1
    · have hsucc : i + 1 = n := by omega
      rw [if_neg (by omega), if_pos hi.symm, if_pos (by omega), if_pos (by omega), hget, hsucc]
    · have hleft : n - 1 ≠ i := fun h => hi h.symm
      rw [if_neg hleft]
      by_cases hin : n + 1 - 1 ≤ i ∧ i < n + 1 - 1 + k
      · have hright : n - 1 ≠ i + 1 := by omega
        rw [if_pos hin, if_neg hright, if_pos (by omega)]
      · rw [if_neg hin, if_neg (by omega)]

lemma length_shiftFds (n k : ℕ) (fds : List ℕ) : (shiftFds n k fds).length = fds.length := by
  induction k generalizing n fds with
  | zero => rfl
  | succ k ih => rw [shiftFds, ih, List.length_set]

/-- The queue moves up. -/
lemma take_shiftFds {fds : List ℕ} {count : ℕ} (hpos : 0 < count) (hcount : count ≤ fds.length) :
    fds.take count = fds.getD 0 0 :: (shiftFds 1 (count - 1) fds).take (count - 1) := by
  refine List.ext_getElem? fun i => ?_
  cases i with
  | zero =>
    rw [List.getElem?_take_of_lt hpos, List.getElem?_cons_zero, some_getD (by omega)]
  | succ i =>
    rw [List.getElem?_cons_succ]
    by_cases hi : i < count - 1
    · rw [List.getElem?_take_of_lt (by omega), List.getElem?_take_of_lt hi,
        getElem?_shiftFds (Nat.le_refl 1) (by omega), if_pos (by omega)]
    · rw [List.getElem?_eq_none (by rw [List.length_take]; omega),
        List.getElem?_eq_none (by rw [List.length_take]; omega)]

/-- A descriptor is put behind the others. -/
lemma pending_enqueue (fd : ℕ) (h : p.outCount < p.outFds.length) :
    (p.enqueue fd).pending = p.pending ++ [fd] := by
  change (p.outFds.set p.outCount fd).take (p.outCount + 1) = p.outFds.take p.outCount ++ [fd]
  rw [List.take_add_one, List.take_set_of_le (Nat.le_refl _), List.getElem?_set_self h]
  rfl

/-- The first descriptor is taken off. -/
def shifted (p : JdwpProcess) : JdwpProcess :=
  { p with outFds := shiftFds 1 (p.outCount - 1) p.outFds, outCount := p.outCount - 1 }

lemma pending_shifted (hpos : 0 < p.outCount) (hcount : p.outCount ≤ p.outFds.length) :
    p.pending = p.outFds.getD 0 0 :: p.shifted.pending := take_shiftFds hpos hcount

/-- `sendmsg` succeeds and the last `fcntl` does not. -/
def RestoreFails (fcntls : List Bool) (sends : List WriteResult) : Prop :=
  fcntls.take 3 = [true, true, false] ∧ (writeSome [0x21] sends).1.isSome = true

/-- The ways the `FDE_WRITE` branch goes. -/
lemma writable_cases (p : JdwpProcess) (fcntls : List Bool) (sends : List WriteResult) :
    (p.outCount = 0 ∧ p.writable fcntls sends = (.idle, p, fcntls, sends)) ∨
    0 < p.outCount ∧ ((∃ cs ws, p.writable fcntls sends = (.failed none, p, cs, ws)) ∨
      RestoreFails fcntls sends ∨
      ∃ cs ws, p.writable fcntls sends = (.sent (p.outFds.getD 0 0), p.shifted, cs, ws)) := by
  rcases Nat.eq_zero_or_pos p.outCount with hzero | hpos
  · exact .inl ⟨hzero, by rw [writable, if_pos hzero]⟩
  refine .inr ⟨hpos, ?_⟩
  rw [writable, if_neg (Nat.ne_of_gt hpos)]
  rcases hget : fcntl fcntls with ⟨ok₁, cs₁⟩
  cases ok₁ with
  | false => exact .inl ⟨_, _, rfl⟩
  | true =>
  dsimp only
  rcases hset : fcntl cs₁ with ⟨ok₂, cs₂⟩
  cases ok₂ with
  | false => exact .inl ⟨_, _, rfl⟩
  | true =>
  dsimp only
  rcases hsend : writeSome [0x21] sends with ⟨out, ws⟩
  cases out with
  | none => exact .inl ⟨_, _, rfl⟩
  | some out =>
  dsimp only
  rcases hrestore : fcntl cs₂ with ⟨ok₃, cs₃⟩
  cases ok₃ with
  | true => exact .inr (.inr ⟨_, _, rfl⟩)
  | false =>
    refine .inr (.inl ⟨?_, by rw [hsend]; rfl⟩)
    -- a script that is not used up does not fail
    cases cs₂ with
    | nil => cases hrestore
    | cons b₃ cs₂ =>
      cases hrestore
      cases cs₁ with
      | nil => cases hset
      | cons b₂ cs₁ =>
        cases hset
        cases fcntls with
        | nil => cases hget
        | cons b₁ fcntls =>
          cases hget
          rfl

/-- The `FDE_READ` branch has nothing to do with the queue. -/
lemma readable_frame (p : JdwpProcess) (reads : List ReadResult) :
    ∃ o p' rs, p.readable reads = (o, p', rs) ∧ p'.addr = p.addr ∧ p'.socket = p.socket ∧
      p'.outFds = p.outFds ∧ p'.outCount = p.outCount ∧ (o ≠ .known → p'.pid = p.pid) ∧
      (o = .known → p.pid < 0) := by
  rw [readable]
  by_cases hneg : p.pid < 0
  · rw [if_pos hneg]
    rcases readLoop (4 - p.inBuff.length) reads with ⟨bytes, eof, rs⟩
    dsimp only
    split_ifs
    · exact ⟨_, _, _, rfl, rfl, rfl, rfl, rfl, fun _ => rfl, fun _ => hneg⟩
    · exact ⟨_, _, _, rfl, rfl, rfl, rfl, rfl, fun _ => rfl, fun _ => hneg⟩
    · cases scanPid (p.inBuff ++ bytes) with
      | none => exact ⟨_, _, _, rfl, rfl, rfl, rfl, rfl, fun _ => rfl, fun _ => hneg⟩
      | some pid => exact ⟨_, _, _, rfl, rfl, rfl, rfl, rfl, fun h => absurd rfl h, fun _ => hneg⟩
  · rw [if_neg hneg]
    refine ⟨_, _, _, rfl, rfl, rfl, rfl, rfl, fun _ => rfl, fun h => ?_⟩
    split_ifs at h

end JdwpProcess

namespace Jdwp

/-! ## The property -/

/-- The descriptors that were queued for a process, oldest first. -/
def queuedFor (addr : ℕ) : List JdwpObs → List ℕ
  | [] => []
  | .queued a fd _ :: tr => if a = addr then queuedFor addr tr ++ [fd] else queuedFor addr tr
  | .known .. :: tr => queuedFor addr tr
  | .sent .. :: tr => queuedFor addr tr
  | .closed _ :: tr => queuedFor addr tr

/-- The descriptors that were passed on to a process, oldest first. -/
def sentTo (addr : ℕ) : List JdwpObs → List ℕ
  | [] => []
  | .sent a fd :: tr => if a = addr then sentTo addr tr ++ [fd] else sentTo addr tr
  | .known .. :: tr => sentTo addr tr
  | .queued .. :: tr => sentTo addr tr
  | .closed _ :: tr => sentTo addr tr

/-- The hand-off of descriptors. -/
structure HandedOff (J : Jdwp) : Prop where
  /-- A descriptor was queued for a process that had said exactly the pid asked for; as long as
  its pid is negative the handshake of a process is not complete. -/
  owner : ∀ addr fd pid,
    After (.queued addr fd pid) (fun old => 0 ≤ pid ∧ .known addr pid ∈ old) J.trace
  count : ∀ p ∈ J.list, p.outCount ≤ maxOutFds
  subscribed : ∀ p ∈ J.list, J.writing p.addr = true ↔ 0 < p.outCount
  order : ∀ addr, sentTo addr J.trace <+: queuedFor addr J.trace
  /-- A descriptor is closed once, when it is not queued any more. -/
  once : ∀ addr fd pid, .queued addr fd pid ∈ J.trace →
    J.trace.count (.closed fd) = if ∃ p ∈ J.list, fd ∈ p.pending then 0 else 1

/-- The condition: no request for a negative number finds a process, and the flags of a socket
can be restored once a descriptor has been sent. -/
def Harmless : Event → Jdwp → Prop
  | .connect, _ => True
  | .ready addr read write _ fcntls sends, J =>
    ¬(read = false ∧ write = true ∧ (∃ p ∈ J.list, p.addr = addr ∧ 0 < p.outCount) ∧
      JdwpProcess.RestoreFails fcntls sends)
  | .request text pair, J =>
    ¬(atoi text < 0 ∧ pair = true ∧
      ∃ p, (J.list.find? fun q => q.pid = atoi text) = some p ∧ p.outCount < maxOutFds)

instance (e : Event) (J : Jdwp) : Decidable (Harmless e J) :=
  match e with
  | .connect => inferInstanceAs (Decidable True)
  | .ready addr read write _ fcntls sends =>
    inferInstanceAs (Decidable (¬(read = false ∧ write = true ∧
      (∃ p ∈ J.list, p.addr = addr ∧ 0 < p.outCount) ∧ fcntls.take 3 = [true, true, false] ∧
      (writeSome [0x21] sends).1.isSome = true)))
  | .request text pair =>
    let found := (J.list.find? fun q => q.pid = atoi text).any (·.outCount < maxOutFds)
    decidable_of_iff (¬(atoi text < 0 ∧ pair = true ∧ found = true)) <| by
      simp only [Harmless, found, Option.any_eq_true, decide_eq_true_eq]

/-! ## The history -/

variable {J : Jdwp} {p q : JdwpProcess} {addr fd : ℕ} {tr : List JdwpObs}

/-- A descriptor was queued. -/
def Queued (fd : ℕ) (tr : List JdwpObs) : Prop := ∃ addr pid, .queued addr fd pid ∈ tr

lemma queued_known {a : ℕ} {pid : Int} : Queued fd (.known a pid :: tr) ↔ Queued fd tr := by
  simp [Queued]

lemma queued_sent {a x : ℕ} : Queued fd (.sent a x :: tr) ↔ Queued fd tr := by
  simp [Queued]

lemma queued_closed {x : ℕ} : Queued fd (.closed x :: tr) ↔ Queued fd tr := by
  simp [Queued]

lemma queued_queued {a x : ℕ} {pid : Int} :
    Queued fd (.queued a x pid :: tr) ↔ fd = x ∨ Queued fd tr := by
  constructor
  · rintro ⟨b, i, hmem⟩
    rcases List.mem_cons.mp hmem with heq | hmem
    · cases heq
      exact .inl rfl
    · exact .inr ⟨b, i, hmem⟩
  · rintro (rfl | ⟨b, i, hmem⟩)
    · exact ⟨a, pid, List.mem_cons_self ..⟩
    · exact ⟨b, i, List.mem_cons_of_mem _ hmem⟩

lemma mem_queuedFor : fd ∈ queuedFor addr tr ↔ ∃ pid, .queued addr fd pid ∈ tr := by
  induction tr with
  | nil => simp [queuedFor]
  | cons o tr ih =>
    cases o with
    | queued a x pid =>
      rw [queuedFor]
      split_ifs with ha
      · rw [List.mem_append, ih, List.mem_singleton]
        subst ha
        constructor
        · rintro (⟨i, hi⟩ | rfl)
          · exact ⟨i, List.mem_cons_of_mem _ hi⟩
          · exact ⟨pid, List.mem_cons_self ..⟩
        · rintro ⟨i, hi⟩
          rcases List.mem_cons.mp hi with heq | hi
          · cases heq
            exact .inr rfl
          · exact .inl ⟨i, hi⟩
      · rw [ih]
        constructor
        · rintro ⟨i, hi⟩
          exact ⟨i, List.mem_cons_of_mem _ hi⟩
        · rintro ⟨i, hi⟩
          rcases List.mem_cons.mp hi with heq | hi
          · cases heq
            exact absurd rfl ha
          · exact ⟨i, hi⟩
    | _ => simp [queuedFor, ih]

lemma setWriting_of_eq {b : Bool} (h : J.writing addr = b) : J.setWriting addr b = J := by
  rw [setWriting, ← h, update_eq_self]

/-- The descriptors that `jdwp_process_free` closes last. -/
lemma foldl_closed (fds : List ℕ) (J : Jdwp) :
    fds.foldl (fun J fd => J.emit (.closed fd)) J =
      { J with trace := fds.reverse.map .closed ++ J.trace } := by
  induction fds generalizing J with
  | nil => rfl
  | cons fd fds ih =>
    rw [List.foldl_cons, ih, List.reverse_cons, List.map_append, List.append_assoc]
    rfl

lemma free_eq (p : JdwpProcess) (J : Jdwp) : J.free p = { J with
    list := J.list.filter fun q => q.addr ≠ p.addr
    writing := update J.writing p.addr false
    trace := p.pending.reverse.map .closed ++ .closed p.socket :: J.trace } :=
  foldl_closed ..

lemma queuedFor_closed (fds : List ℕ) (tr : List JdwpObs) :
    queuedFor addr (fds.map .closed ++ tr) = queuedFor addr tr := by
  induction fds with
  | nil => rfl
  | cons x fds ih => exact ih

lemma sentTo_closed (fds : List ℕ) (tr : List JdwpObs) :
    sentTo addr (fds.map .closed ++ tr) = sentTo addr tr := by
  induction fds with
  | nil => rfl
  | cons x fds ih => exact ih

lemma queued_map_closed (fds : List ℕ) (tr : List JdwpObs) :
    Queued fd (fds.map .closed ++ tr) ↔ Queued fd tr := by
  induction fds with
  | nil => rfl
  | cons x fds ih => exact queued_closed.trans ih

lemma count_closed (fds : List ℕ) (tr : List JdwpObs) :
    (fds.map JdwpObs.closed ++ tr).count (JdwpObs.closed fd) =
      fds.count fd + tr.count (JdwpObs.closed fd) := by
  have hinj : Injective JdwpObs.closed := fun _ _ h => JdwpObs.closed.inj h
  rw [List.count_append, List.count_map_of_injective _ _ hinj]

/-! ## The list -/

/-- How often a descriptor is queued. -/
def pendingCount (fd : ℕ) (l : List JdwpProcess) : ℕ := (l.flatMap (·.pending)).count fd

lemma pendingCount_cons (fd : ℕ) (p : JdwpProcess) (l : List JdwpProcess) :
    pendingCount fd (p :: l) = p.pending.count fd + pendingCount fd l := by
  rw [pendingCount, List.flatMap_cons, List.count_append]
  rfl

/-- The processes other than the one at `addr`. -/
def others (addr : ℕ) (l : List JdwpProcess) : List JdwpProcess := l.filter fun q => q.addr ≠ addr

lemma mem_others {l : List JdwpProcess} : q ∈ others addr l ↔ q ∈ l ∧ q.addr ≠ addr := by
  rw [others, List.mem_filter, decide_eq_true_eq]

/-- A listed process and the others. -/
lemma perm_others {l : List JdwpProcess} (hn : (l.map (·.addr)).Nodup) (hp : p ∈ l) :
    l.Perm (p :: others p.addr l) := by
  induction l with
  | nil => cases hp
  | cons q l ih =>
    rw [List.map_cons, List.nodup_cons] at hn
    rcases List.mem_cons.mp hp with rfl | hp
    · have hrest : others p.addr (p :: l) = l := by
        rw [others, List.filter_cons_of_neg (by simp)]
        refine List.filter_eq_self.mpr fun q hq => decide_eq_true fun heq => hn.1 ?_
        exact heq ▸ List.mem_map_of_mem hq
      rw [hrest]
    · have hq : q.addr ≠ p.addr := by
        intro heq
        exact hn.1 (heq ▸ List.mem_map_of_mem hp)
      rw [others, List.filter_cons_of_pos (by simpa using hq)]
      exact ((ih hn.2 hp).cons q).trans (.swap ..)

/-- A listed process is replaced by `q`. -/
lemma perm_setProcess (hn : (J.list.map (·.addr)).Nodup) (hp : p ∈ J.list)
    (hq : q.addr = p.addr) : (J.setProcess q).list.Perm (q :: others p.addr J.list) := by
  have hperm := (perm_others hn hp).map fun r => if r.addr = q.addr then q else r
  have hothers : ((others p.addr J.list).map fun r => if r.addr = q.addr then q else r) =
      others p.addr J.list := by
    refine (List.map_congr_left fun r hr => if_neg ?_).trans (List.map_id _)
    rw [hq]
    exact (mem_others.mp hr).2
  rw [List.map_cons, if_pos hq.symm, hothers] at hperm
  exact hperm

lemma addrs_setProcess (J : Jdwp) (q : JdwpProcess) :
    (J.setProcess q).list.map (·.addr) = J.list.map (·.addr) := by
  rw [setProcess, List.map_map]
  refine List.map_congr_left fun r _ => ?_
  change (if r.addr = q.addr then q else r).addr = r.addr
  split_ifs with h
  · exact h.symm
  · rfl

lemma pendingCount_perm {l m : List JdwpProcess} (h : l.Perm m) (fd : ℕ) :
    pendingCount fd l = pendingCount fd m :=
  (h.flatMap_right _).count_eq fd

/-! ## The invariant -/

/-- What is true of a listed process. -/
structure Fits (J : Jdwp) (p : JdwpProcess) : Prop where
  fresh : p.addr < J.nextAddr
  slots : p.outFds.length = maxOutFds
  count : p.outCount ≤ maxOutFds
  known : 0 ≤ p.pid → .known p.addr p.pid ∈ J.trace
  unknown : p.pid < 0 → p.outCount = 0
  subscribed : J.writing p.addr = true ↔ 0 < p.outCount
  pending : queuedFor p.addr J.trace = sentTo p.addr J.trace ++ p.pending
  socket : p.socket < J.nextFd
  client : ¬Queued p.socket J.trace

structure Inv (J : Jdwp) : Prop where
  addrs : (J.list.map (·.addr)).Nodup
  fits : ∀ p ∈ J.list, Fits J p
  owner : ∀ addr fd pid,
    After (.queued addr fd pid) (fun old => 0 ≤ pid ∧ .known addr pid ∈ old) J.trace
  order : ∀ addr, sentTo addr J.trace <+: queuedFor addr J.trace
  unused : ∀ addr, J.nextAddr ≤ addr → queuedFor addr J.trace = []
  ledger : ∀ fd, Queued fd J.trace → J.trace.count (.closed fd) + pendingCount fd J.list = 1
  freshFd : ∀ fd, J.nextFd ≤ fd → ¬Queued fd J.trace ∧ .closed fd ∉ J.trace

/-- A process that an event is not about. -/
lemma Fits.keep {J' : Jdwp} (h : Fits J q) (haddr : J.nextAddr ≤ J'.nextAddr)
    (hfd : J.nextFd ≤ J'.nextFd) (htrace : ∀ o ∈ J.trace, o ∈ J'.trace)
    (hwriting : J'.writing q.addr = J.writing q.addr)
    (hqueued : queuedFor q.addr J'.trace = queuedFor q.addr J.trace)
    (hsent : sentTo q.addr J'.trace = sentTo q.addr J.trace)
    (hclient : ¬Queued q.socket J'.trace) : Fits J' q where
  fresh := Nat.lt_of_lt_of_le h.fresh haddr
  slots := h.slots
  count := h.count
  known := fun hpid => htrace _ (h.known hpid)
  unknown := h.unknown
  subscribed := by
    rw [hwriting]
    exact h.subscribed
  pending := by
    rw [hqueued, hsent]
    exact h.pending
  socket := Nat.lt_of_lt_of_le h.socket hfd
  client := hclient

/-- What is queued for a listed process has been queued. -/
lemma Fits.queued (h : Fits J p) (hfd : fd ∈ p.pending) : Queued fd J.trace := by
  have hmem : fd ∈ queuedFor p.addr J.trace := by
    rw [h.pending]
    exact List.mem_append_right _ hfd
  obtain ⟨pid, hpid⟩ := mem_queuedFor.mp hmem
  exact ⟨p.addr, pid, hpid⟩

namespace Inv

lemma handOff (h : Inv J) : HandedOff J where
  owner := h.owner
  count := fun p hp => (h.fits p hp).count
  subscribed := fun p hp => (h.fits p hp).subscribed
  order := h.order
  once := by
    intro addr fd pid hqueued
    have hledger := h.ledger fd ⟨addr, pid, hqueued⟩
    have hpending : (∃ p ∈ J.list, fd ∈ p.pending) ↔ 0 < pendingCount fd J.list := by
      rw [pendingCount, List.count_pos_iff, List.mem_flatMap]
    split_ifs with hlisted
    · rw [hpending] at hlisted
      omega
    · rw [hpending] at hlisted
      omega

/-- A client connects. -/
lemma connect (h : Inv J) : Inv J.connect := by
  have hnew : ∀ q ∈ J.list, q.addr ≠ J.nextAddr := fun q hq =>
    Nat.ne_of_lt (h.fits q hq).fresh
  have hsent : sentTo J.nextAddr J.trace = [] := by
    have hprefix := h.order J.nextAddr
    rw [h.unused _ (Nat.le_refl _)] at hprefix
    exact List.prefix_nil.mp hprefix
  refine ⟨?_, fun q hq => ?_, h.owner, h.order, fun addr haddr => ?_, fun fd hfd => ?_,
    fun fd hfd => ?_⟩
  · change ((J.list ++ [_]).map JdwpProcess.addr).Nodup
    rw [List.map_append, List.nodup_append]
    refine ⟨h.addrs, by simp, ?_⟩
    intro a ha b hb
    obtain ⟨q, hq, rfl⟩ := List.mem_map.mp ha
    rw [List.mem_singleton.mp hb]
    exact hnew q hq
  · rcases List.mem_append.mp hq with hq | hq
    · refine (h.fits q hq).keep (Nat.le_succ _) (Nat.le_succ _) (fun _ ho => ho) ?_ rfl rfl
        (h.fits q hq).client
      exact update_of_ne (hnew q hq) ..
    · rw [List.mem_singleton.mp hq]
      refine ⟨Nat.lt_succ_self _, rfl, Nat.zero_le _, nofun,
        fun _ => rfl, ?_, ?_, Nat.lt_succ_self _, (h.freshFd _ (Nat.le_refl _)).1⟩
      · change update J.writing J.nextAddr false J.nextAddr = true ↔ _
        rw [update_self]
        exact iff_of_false Bool.false_ne_true (Nat.lt_irrefl 0)
      · change queuedFor J.nextAddr J.trace = sentTo J.nextAddr J.trace ++ []
        rw [h.unused _ (Nat.le_refl _), hsent, List.append_nil]
  · exact h.unused addr (Nat.le_of_succ_le haddr)
  · have hledger := h.ledger fd hfd
    have hcount : pendingCount fd J.connect.list = pendingCount fd J.list := by
      change pendingCount fd (J.list ++ [_]) = _
      rw [pendingCount, List.flatMap_append, List.count_append]
      rfl
    rw [hcount]
    exact hledger
  · exact h.freshFd fd (Nat.le_of_succ_le hfd)

/-- A process makes itself known, or says it again. -/
lemma emitKnown (h : Inv J) (addr : ℕ) (pid : Int) : Inv (J.emit (.known addr pid)) where
  addrs := h.addrs
  fits := fun q hq => (h.fits q hq).keep (Nat.le_refl _) (Nat.le_refl _)
    (fun _ ho => List.mem_cons_of_mem _ ho) rfl rfl rfl (queued_known.not.mpr (h.fits q hq).client)
  owner := fun a fd i => (after_cons.mpr ⟨nofun, h.owner a fd i⟩)
  order := h.order
  unused := h.unused
  ledger := by
    intro fd hfd
    have hledger := h.ledger fd (queued_known.mp hfd)
    change (JdwpObs.known addr pid :: J.trace).count (.closed fd) + pendingCount fd J.list = 1
    have hne : JdwpObs.known addr pid ≠ .closed fd := nofun
    rw [List.count_cons_of_ne hne]
    exact hledger
  freshFd := fun fd hfd => ⟨queued_known.not.mpr (h.freshFd fd hfd).1,
    fun hmem => (h.freshFd fd hfd).2 ((List.mem_cons.mp hmem).resolve_left nofun)⟩

/-- A process receives something; its queue stays as it is. -/
lemma receive (h : Inv J) (hp : p ∈ J.list) (haddr : q.addr = p.addr)
    (hsocket : q.socket = p.socket) (hfds : q.outFds = p.outFds) (hcount : q.outCount = p.outCount)
    (hknown : 0 ≤ q.pid → .known q.addr q.pid ∈ J.trace) (hunknown : q.pid < 0 → q.outCount = 0) :
    Inv (J.setProcess q) := by
  have hperm := perm_setProcess h.addrs hp haddr
  have hpending : q.pending = p.pending := by
    rw [JdwpProcess.pending, JdwpProcess.pending, hfds, hcount]
  have hfits := h.fits p hp
  refine ⟨?_, fun r hr => ?_, h.owner, h.order, h.unused, fun fd hfd => ?_, h.freshFd⟩
  · rw [addrs_setProcess]
    exact h.addrs
  · rcases List.mem_cons.mp (hperm.mem_iff.mp hr) with rfl | hr
    · refine ⟨?_, ?_, ?_, hknown, hunknown, ?_, ?_, ?_, ?_⟩
      · exact haddr ▸ hfits.fresh
      · exact hfds ▸ hfits.slots
      · exact hcount ▸ hfits.count
      · rw [haddr, hcount]
        exact hfits.subscribed
      · rw [haddr, hpending]
        exact hfits.pending
      · exact hsocket ▸ hfits.socket
      · exact hsocket ▸ hfits.client
    · have hr := h.fits r (mem_others.mp hr).1
      exact hr.keep (Nat.le_refl _) (Nat.le_refl _) (fun _ ho => ho) rfl rfl rfl hr.client
  · have hledger := h.ledger fd hfd
    rw [pendingCount_perm (perm_others h.addrs hp), pendingCount_cons] at hledger
    rw [pendingCount_perm hperm, pendingCount_cons, hpending]
    exact hledger

/-- `jdwp_process_free`. -/
lemma free (h : Inv J) (hp : p ∈ J.list) : Inv (J.free p) := by
  have hfits := h.fits p hp
  rw [free_eq]
  generalize htr : p.pending.reverse.map JdwpObs.closed ++ .closed p.socket :: J.trace = tr
  have hqueued : ∀ fd, Queued fd tr ↔ Queued fd J.trace := fun fd =>
    htr ▸ (queued_map_closed ..).trans queued_closed
  have hqueuedFor : ∀ addr, queuedFor addr tr = queuedFor addr J.trace := fun addr =>
    htr ▸ queuedFor_closed ..
  have hsentTo : ∀ addr, sentTo addr tr = sentTo addr J.trace := fun addr =>
    htr ▸ sentTo_closed ..
  refine ⟨h.addrs.sublist (List.filter_sublist.map _), fun r hr => ?_, fun addr fd pid => ?_,
    fun addr => ?_, fun addr haddr => (hqueuedFor addr).trans (h.unused addr haddr),
    fun fd hfd => ?_, fun fd hfd => ?_⟩
  · obtain ⟨hrJ, hne⟩ := mem_others.mp hr
    have hr := h.fits r hrJ
    refine hr.keep (Nat.le_refl _) (Nat.le_refl _) (fun o ho => ?_) (update_of_ne hne ..)
      (hqueuedFor _) (hsentTo _) ((hqueued _).not.mpr hr.client)
    exact htr ▸ List.mem_append_right _ (List.mem_cons_of_mem _ ho)
  · have hclosed : JdwpObs.queued addr fd pid ∉ p.pending.reverse.map JdwpObs.closed := by simp
    have hsocket : JdwpObs.closed p.socket ≠ .queued addr fd pid := nofun
    have howner := (after_append hclosed).mpr
      (after_cons.mpr ⟨fun heq => absurd heq hsocket, h.owner addr fd pid⟩)
    rwa [htr] at howner
  · change sentTo addr tr <+: queuedFor addr tr
    rw [hsentTo, hqueuedFor]
    exact h.order addr
  · rw [hqueued] at hfd
    have hledger := h.ledger fd hfd
    have hsocket : JdwpObs.closed p.socket ≠ .closed fd := by
      rintro ⟨⟩
      exact hfits.client hfd
    have hcount : tr.count (.closed fd) = p.pending.count fd + J.trace.count (.closed fd) := by
      rw [← htr, count_closed, List.count_reverse, List.count_cons_of_ne hsocket]
    rw [pendingCount_perm (perm_others h.addrs hp), pendingCount_cons] at hledger
    change tr.count (.closed fd) + pendingCount fd (others p.addr J.list) = 1
    omega
  · obtain ⟨hnone, hopen⟩ := h.freshFd fd hfd
    refine ⟨(hqueued fd).not.mpr hnone, fun hclosed => ?_⟩
    change JdwpObs.closed fd ∈ tr at hclosed
    rw [← htr, List.mem_append, List.mem_cons] at hclosed
    rcases hclosed with hclosed | heq | hclosed
    · obtain ⟨x, hx, heq⟩ := List.mem_map.mp hclosed
      cases heq
      exact hnone (hfits.queued (List.mem_reverse.mp hx))
    · cases heq
      exact absurd hfits.socket (Nat.not_lt.mpr hfd)
    · exact hopen hclosed

/-- A descriptor is passed on and closed. -/
lemma send (h : Inv J) (hp : p ∈ J.list) (hpos : 0 < p.outCount) {b : Bool}
    (hb : b = true ↔ 0 < p.shifted.outCount) :
    Inv ((((J.setProcess p.shifted).emit (.sent p.addr (p.outFds.getD 0 0))).emit
      (.closed (p.outFds.getD 0 0))).setWriting p.addr b) := by
  have hfits := h.fits p hp
  have haddr : p.shifted.addr = p.addr := rfl
  have hperm := perm_setProcess h.addrs hp haddr
  have hslots : p.outCount ≤ p.outFds.length := hfits.slots ▸ hfits.count
  have hpending := JdwpProcess.pending_shifted hpos hslots
  generalize p.outFds.getD 0 0 = x at hpending
  have hqueued : ∀ fd, Queued fd (.closed x :: .sent p.addr x :: J.trace) ↔ Queued fd J.trace :=
    fun fd => queued_closed.trans queued_sent
  have hsentTo : sentTo p.addr (.closed x :: .sent p.addr x :: J.trace) =
      sentTo p.addr J.trace ++ [x] := if_pos rfl
  have hline : queuedFor p.addr J.trace = (sentTo p.addr J.trace ++ [x]) ++ p.shifted.pending := by
    rw [hfits.pending, hpending, List.append_assoc, List.singleton_append]
  refine ⟨?_, fun r hr => ?_, fun addr fd pid => ?_, fun addr => ?_, h.unused, fun fd hfd => ?_,
    fun fd hfd => ?_⟩
  · change ((J.setProcess p.shifted).list.map JdwpProcess.addr).Nodup
    rw [addrs_setProcess]
    exact h.addrs
  · rcases List.mem_cons.mp (hperm.mem_iff.mp hr) with rfl | hr
    · refine ⟨hfits.fresh, ?_, Nat.le_trans (Nat.sub_le ..) hfits.count, fun hpid => ?_,
        fun hpid => ?_, ?_, ?_, hfits.socket, (hqueued _).not.mpr hfits.client⟩
      · exact (JdwpProcess.length_shiftFds ..).trans hfits.slots
      · exact List.mem_cons_of_mem _ (List.mem_cons_of_mem _ (hfits.known hpid))
      · have hzero := hfits.unknown hpid
        omega
      · change update J.writing p.addr b p.addr = true ↔ _
        rw [update_self]
        exact hb
      · change queuedFor p.addr J.trace =
          sentTo p.addr (.closed x :: .sent p.addr x :: J.trace) ++ p.shifted.pending
        rw [hsentTo]
        exact hline
    · obtain ⟨hrJ, hne⟩ := mem_others.mp hr
      have hr := h.fits r hrJ
      exact hr.keep (Nat.le_refl _) (Nat.le_refl _)
        (fun o ho => List.mem_cons_of_mem _ (List.mem_cons_of_mem _ ho)) (update_of_ne hne ..) rfl
        (if_neg hne.symm) ((hqueued _).not.mpr hr.client)
  · exact after_cons.mpr ⟨nofun, after_cons.mpr ⟨nofun, h.owner addr fd pid⟩⟩
  · change sentTo addr (.closed x :: .sent p.addr x :: J.trace) <+: queuedFor addr J.trace
    rcases eq_or_ne p.addr addr with rfl | hne
    · rw [hsentTo, hline]
      exact List.prefix_append ..
    · rw [show sentTo addr (.closed x :: .sent p.addr x :: J.trace) = sentTo addr J.trace from
        if_neg hne]
      exact h.order addr
  · have hfd := (hqueued fd).mp hfd
    have hledger := h.ledger fd hfd
    rw [pendingCount_perm (perm_others h.addrs hp), pendingCount_cons, hpending,
      List.count_cons] at hledger
    change (JdwpObs.closed x :: .sent p.addr x :: J.trace).count (.closed fd) +
      pendingCount fd (J.setProcess p.shifted).list = 1
    have hsent : JdwpObs.sent p.addr x ≠ .closed fd := nofun
    rw [pendingCount_perm hperm, pendingCount_cons, List.count_cons, List.count_cons_of_ne hsent]
    have hsame : (JdwpObs.closed x == .closed fd) = (x == fd) := by
      by_cases hx : x = fd
      · simp [hx]
      · simp [hx]
    rw [hsame]
    omega
  · obtain ⟨hnone, hopen⟩ := h.freshFd fd hfd
    refine ⟨(hqueued fd).not.mpr hnone, fun hclosed => ?_⟩
    rcases List.mem_cons.mp hclosed with heq | hclosed
    · cases heq
      exact hnone (hfits.queued (hpending ▸ List.mem_cons_self ..))
    · exact hopen ((List.mem_cons.mp hclosed).resolve_left nofun)

/-- A descriptor is queued for a process that is known. -/
lemma enqueue (h : Inv J) (hp : p ∈ J.list) (hroom : p.outCount < maxOutFds) (hpid : 0 ≤ p.pid) :
    Inv ((({ J with nextFd := J.nextFd + 2 }.setProcess (p.enqueue (J.nextFd + 1))).emit
      (.queued p.addr (J.nextFd + 1) p.pid)).setWriting p.addr true) := by
  have hfits := h.fits p hp
  generalize hx : J.nextFd + 1 = x
  have haddr : (p.enqueue x).addr = p.addr := rfl
  have hperm := perm_setProcess h.addrs hp haddr
  have hpending : (p.enqueue x).pending = p.pending ++ [x] :=
    JdwpProcess.pending_enqueue x (hfits.slots ▸ hroom)
  obtain ⟨hnew, hopen⟩ := h.freshFd x (by omega)
  have hqueuedFor : queuedFor p.addr (.queued p.addr x p.pid :: J.trace) =
      queuedFor p.addr J.trace ++ [x] := if_pos rfl
  have hothers : ∀ a, p.addr ≠ a → queuedFor a (.queued p.addr x p.pid :: J.trace) =
      queuedFor a J.trace := fun a hne => if_neg hne
  -- the client ends of the sockets have older numbers
  have hclient : ∀ r ∈ J.list, ¬Queued r.socket (.queued p.addr x p.pid :: J.trace) := by
    intro r hr hqueued
    rcases queued_queued.mp hqueued with heq | hqueued
    · have hold := (h.fits r hr).socket
      omega
    · exact (h.fits r hr).client hqueued
  refine ⟨?_, fun r hr => ?_, fun addr fd pid => ?_, fun addr => ?_, fun addr hunused => ?_,
    fun fd hfd => ?_, fun fd hfd => ?_⟩
  · change ((J.setProcess (p.enqueue x)).list.map JdwpProcess.addr).Nodup
    rw [addrs_setProcess]
    exact h.addrs
  · rcases List.mem_cons.mp (hperm.mem_iff.mp hr) with rfl | hr
    · refine ⟨hfits.fresh, (List.length_set ..).trans hfits.slots, hroom,
        fun _ => List.mem_cons_of_mem _ (hfits.known hpid), fun hneg => ?_, ?_, ?_,
        Nat.lt_add_right 2 hfits.socket, hclient p hp⟩
      · exact absurd hpid (Int.not_le.mpr hneg)
      · change update J.writing p.addr true p.addr = true ↔ 0 < p.outCount + 1
        rw [update_self]
        exact iff_of_true rfl (Nat.succ_pos _)
      · change queuedFor p.addr (.queued p.addr x p.pid :: J.trace) =
          sentTo p.addr J.trace ++ (p.enqueue x).pending
        rw [hqueuedFor, hfits.pending, hpending, List.append_assoc]
    · obtain ⟨hrJ, hne⟩ := mem_others.mp hr
      exact (h.fits r hrJ).keep (Nat.le_refl _) (Nat.le_add_right _ 2)
        (fun o ho => List.mem_cons_of_mem _ ho) (update_of_ne hne ..) (hothers _ hne.symm) rfl
        (hclient r hrJ)
  · refine after_cons.mpr ⟨fun heq => ?_, h.owner addr fd pid⟩
    cases heq
    exact ⟨hpid, hfits.known hpid⟩
  · change sentTo addr J.trace <+: queuedFor addr (.queued p.addr x p.pid :: J.trace)
    rcases eq_or_ne p.addr addr with rfl | hne
    · rw [hqueuedFor]
      exact (h.order p.addr).trans (List.prefix_append ..)
    · rw [hothers addr hne]
      exact h.order addr
  · have hne : p.addr ≠ addr := Nat.ne_of_lt (Nat.lt_of_lt_of_le hfits.fresh hunused)
    exact (hothers addr hne).trans (h.unused addr hunused)
  · change (JdwpObs.queued p.addr x p.pid :: J.trace).count (.closed fd) +
      pendingCount fd (J.setProcess (p.enqueue x)).list = 1
    have hqueued : JdwpObs.queued p.addr x p.pid ≠ .closed fd := nofun
    rw [List.count_cons_of_ne hqueued, pendingCount_perm hperm, pendingCount_cons, hpending,
      List.count_append]
    rcases queued_queued.mp hfd with rfl | hfd
    · -- the new descriptor is queued here only
      have hnone : pendingCount fd J.list = 0 := by
        rw [pendingCount, List.count_eq_zero, List.mem_flatMap]
        rintro ⟨r, hr, hmem⟩
        exact hnew ((h.fits r hr).queued hmem)
      rw [pendingCount_perm (perm_others h.addrs hp), pendingCount_cons] at hnone
      have hzero := List.count_eq_zero.mpr hopen
      have hone : [fd].count fd = 1 := by simp
      omega
    · have hledger := h.ledger fd hfd
      rw [pendingCount_perm (perm_others h.addrs hp), pendingCount_cons] at hledger
      have hfdx : fd ≠ x := by
        rintro rfl
        exact hnew hfd
      have hzero : [x].count fd = 0 := by
        rw [List.count_eq_zero, List.mem_singleton]
        exact hfdx
      omega
  · change J.nextFd + 2 ≤ fd at hfd
    obtain ⟨hnone, hclosed⟩ := h.freshFd fd (by omega)
    refine ⟨fun hqueued => ?_, fun hmem => hclosed ((List.mem_cons.mp hmem).resolve_left nofun)⟩
    rcases queued_queued.mp hqueued with heq | hqueued
    · omega
    · exact hnone hqueued

/-! ## Events -/

/-- The `FDE_WRITE` branch. -/
lemma onWritable (h : Inv J) (hp : p ∈ J.list) {fcntls : List Bool} {sends : List WriteResult}
    (hrestore : ¬(0 < p.outCount ∧ JdwpProcess.RestoreFails fcntls sends)) :
    Inv (J.onWritable p fcntls sends) := by
  rw [Jdwp.onWritable]
  rcases p.writable_cases fcntls sends with ⟨-, hwrite⟩ | ⟨hpos, ⟨cs, ws, hwrite⟩ | hfails |
    ⟨cs, ws, hwrite⟩⟩
  · rw [hwrite]
    exact h
  · rw [hwrite]
    have hfits := h.fits p hp
    have hset := h.receive hp rfl rfl rfl rfl hfits.known hfits.unknown
    refine hset.free ?_
    exact (perm_setProcess h.addrs hp rfl).mem_iff.mpr (List.mem_cons_self ..)
  · exact absurd ⟨hpos, hfails⟩ hrestore
  · rw [hwrite]
    dsimp only
    split_ifs with hzero
    · exact h.send hp hpos (iff_of_false Bool.false_ne_true (Nat.not_lt.mpr (Nat.le_of_eq hzero)))
    · -- the subscription is on already
      have hsend := h.send hp hpos (b := true) (iff_of_true rfl (Nat.pos_of_ne_zero hzero))
      rw [setWriting_of_eq] at hsend
      · exact hsend
      · exact (h.fits p hp).subscribed.mpr hpos

/-- `jdwp_process_event`. -/
lemma processEvent (h : Inv J) (hp : p ∈ J.list) {read write : Bool} (reads : List ReadResult)
    {fcntls : List Bool} {sends : List WriteResult} (hrestore : ¬(read = false ∧ write = true ∧
      0 < p.outCount ∧ JdwpProcess.RestoreFails fcntls sends)) :
    Inv (J.processEvent p read write reads fcntls sends) := by
  have hfits := h.fits p hp
  rw [Jdwp.processEvent]
  cases read with
  | false =>
    cases write with
    | false => exact h
    | true => exact h.onWritable hp fun hfails => hrestore ⟨rfl, rfl, hfails⟩
  | true =>
    obtain ⟨o, q, rs, hread, haddr, hsocket, hfds, hcount, hpid, hunknown⟩ :=
      p.readable_frame reads
    rw [if_pos rfl, hread]
    have hlisted : ∀ J' : Jdwp, J'.list = J.list → q ∈ (J'.setProcess q).list := by
      intro J' hJ'
      have hn : (J'.list.map (·.addr)).Nodup := hJ' ▸ h.addrs
      exact (perm_setProcess hn (hJ' ▸ hp) haddr).mem_iff.mpr (List.mem_cons_self ..)
    have hsame : o ≠ .known → Inv (J.setProcess q) := by
      intro ho
      have hq := hpid ho
      refine h.receive hp haddr hsocket hfds hcount (fun hpos => ?_) fun hneg => ?_
      · rw [haddr, hq]
        exact hfits.known (hq ▸ hpos)
      · exact hcount.trans (hfits.unknown (hq ▸ hneg))
    cases o with
    | wait => exact hsame nofun
    | close => exact (hsame nofun).free (hlisted J rfl)
    | known =>
      -- nothing is queued for a process that has just made itself known
      have hzero : q.outCount = 0 := hcount.trans (hfits.unknown (hunknown rfl))
      have hknown : Inv ((J.setProcess q).emit (.known q.addr q.pid)) :=
        (h.emitKnown q.addr q.pid).receive hp haddr hsocket hfds hcount
          (fun _ => List.mem_cons_self ..) fun _ => hzero
      dsimp only
      cases write with
      | false => exact hknown
      | true => exact hknown.onWritable (hlisted J rfl) fun ⟨hpos, _⟩ => by omega

/-- `create_jdwp_connection_fd`. -/
lemma createConnectionFd (h : Inv J) {pid : Int} {pair : Bool} (hpid : ¬(pid < 0 ∧ pair = true ∧
      ∃ p, (J.list.find? fun q => q.pid = pid) = some p ∧ p.outCount < maxOutFds)) :
    Inv (J.createConnectionFd pid pair) := by
  rw [Jdwp.createConnectionFd]
  cases hfind : J.list.find? fun q => q.pid = pid with
  | none => exact h
  | some p =>
    dsimp only
    split_ifs with hfull hpair hfirst
    · exact h
    · exact h
    all_goals
      have hp := List.mem_of_find?_eq_some hfind
      have hroom := Nat.not_le.mp hfull
      have heq : p.pid = pid := by simpa using List.find?_some hfind
      have hnonneg : 0 ≤ p.pid := by
        rw [heq]
        refine Int.not_lt.mp fun hneg => hpid ⟨hneg, ?_, p, hfind, hroom⟩
        simpa using hpair
      have henqueue := h.enqueue hp hroom hnonneg
      rw [heq] at henqueue
    · exact henqueue
    · -- the subscription is on already
      have hpos : 0 < p.outCount := Nat.pos_of_ne_zero fun hzero => hfirst (by
        change p.outCount + 1 = 1
        rw [hzero])
      rw [setWriting_of_eq] at henqueue
      · exact henqueue
      · exact (h.fits p hp).subscribed.mpr hpos

end Inv

lemma step_inv {J' : Jdwp} {e : Event} (h : Inv J) (he : Harmless e J)
    (hstep : step e J = .ok J') : Inv J' := by
  cases e with
  | connect =>
    cases hstep
    exact h.connect
  | ready addr read write reads fcntls sends =>
    rw [step] at hstep
    cases hfind : J.list.find? fun q => q.addr = addr with
    | none =>
      rw [hfind] at hstep
      cases hstep
    | some p =>
      rw [hfind] at hstep
      cases hstep
      have hp := List.mem_of_find?_eq_some hfind
      have haddr : p.addr = addr := by simpa using List.find?_some hfind
      refine h.processEvent hp reads fun hall => he ?_
      obtain ⟨hread, hwrite, hpos, hfails⟩ := hall
      exact ⟨hread, hwrite, ⟨p, hp, haddr, hpos⟩, hfails⟩
  | request text pair =>
    cases hstep
    exact h.createConnectionFd he

lemma inv_initial : Inv {} where
  addrs := List.nodup_nil
  fits := nofun
  owner := fun _ _ _ => after_nil
  order := fun _ => List.prefix_refl []
  unused := fun _ _ => rfl
  ledger := by rintro fd ⟨addr, pid, hmem⟩; cases hmem
  freshFd := by
    refine fun fd _ => ⟨?_, List.not_mem_nil⟩
    rintro ⟨addr, pid, hmem⟩
    cases hmem

/-- In a run all of whose steps are harmless the hand-off is right in every state. -/
theorem handedOff {es : List Event} {J : Jdwp} (hes : Along step Harmless es {})
    (hrun : run step es {} = .ok J) : HandedOff J :=
  (run_invariant (fun _ _ _ h he hstep => step_inv h he hstep) inv_initial hes hrun).handOff

/-- A client says that its pid is 1.  Two descriptors are queued for it, and then passed on. -/
def passTwo : List Event :=
  [.connect, .ready 0 true true [.data (str "0001")] [] [], .request (str "1") true,
    .request (str "1") true, .ready 0 false true [] [] [.intr, .wrote 1],
    .ready 0 false true [] [] [.wrote 1]]

/-- The theorem on that run: they are passed on in the order they were queued in. -/
theorem handedOff_one : ∃ J, run step passTwo {} = .ok J ∧
    J.trace = [.closed 4, .sent 0 4, .closed 2, .sent 0 2, .queued 0 4 1, .queued 0 2 1,
      .known 0 1] ∧ HandedOff J := by
  have h : (walk step (fun e J => decide (Harmless e J)) passTwo {}).any (fun J =>
      J.trace = [.closed 4, .sent 0 4, .closed 2, .sent 0 2, .queued 0 4 1, .queued 0 2 1,
        .known 0 1]) = true := by
    decide +kernel
  rw [Option.any_eq_true] at h
  obtain ⟨J, hwalk, htrace⟩ := h
  obtain ⟨hrun, halong⟩ := of_walk hwalk
  have hes := Along.mono (fun e J h => of_decide_eq_true h) halong
  exact ⟨J, hrun, of_decide_eq_true htrace, handedOff hes hrun⟩

/-- `jdwp:-1` is queued for a client that has said nothing yet; and a descriptor that was passed
on is closed twice when the flags of the socket cannot be restored. -/
theorem not_handedOff :
    (∃ J, run step [.connect, .request (str "-1") true] {} = .ok J ∧
      J.trace = [.queued 0 2 (-1)] ∧ ¬HandedOff J) ∧
    ∃ J, run step [.connect, .ready 0 true true [.data (str "0001")] [] [],
        .request (str "1") true, .ready 0 false true [] [true, true, false] [.wrote 1]] {} =
          .ok J ∧
      J.trace = [.closed 2, .closed 0, .closed 2, .sent 0 2, .queued 0 2 1, .known 0 1] ∧
      ¬HandedOff J := by
  have hfirst : (run step [.connect, .request (str "-1") true] {}).toOption.any (fun J =>
      J.trace = [.queued 0 2 (-1)]) = true := by
    decide +kernel
  have hsecond : (run step [.connect, .ready 0 true true [.data (str "0001")] [] [],
      .request (str "1") true, .ready 0 false true [] [true, true, false] [.wrote 1]]
      {}).toOption.any (fun J =>
      J.trace = [.closed 2, .closed 0, .closed 2, .sent 0 2, .queued 0 2 1, .known 0 1]) =
      true := by
    decide +kernel
  obtain ⟨J, hJ, htrace⟩ := of_any hfirst
  obtain ⟨J', hJ', htrace'⟩ := of_any hsecond
  rw [decide_eq_true_eq] at htrace htrace'
  refine ⟨⟨J, hJ, htrace, fun h => ?_⟩, J', hJ', htrace', fun h => ?_⟩
  · have howner := h.owner 0 2 (-1)
    rw [htrace] at howner
    exact List.not_mem_nil (howner [] [] rfl).2
  · have honce := h.once 0 2 1 (by rw [htrace']; decide)
    rw [htrace'] at honce
    split_ifs at honce
    all_goals exact absurd honce (by decide)

end Jdwp

end Adbd
