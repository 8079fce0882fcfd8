import Adbd.Effects.Basic

/-!
# The peer graph

The links between sockets, the two socket lists and the disconnect records of the transports
stay consistent under every elementary change.  Sockets that are being built or taken apart are
exempt from having consistent links, but nobody else refers to them.

The statement is about the parts of the state it needs, so that changes elsewhere do not touch
it.
-/

namespace Adbd

open Function

/-- Kinds that live in the socket lists. -/
def SocketOps.isLocal : SocketOps → Bool
  | .fd | .fdNotify | .jdwp | .tracker => true
  | _ => false

/-- Kinds that can be peers. -/
def SocketOps.pairs : SocketOps → SocketOps → Bool
  | .remote, k => k.isLocal
  | k, .remote => k.isLocal
  | .fd, .smart => true
  | .smart, .fd => true
  | _, _ => false

/-- The graph of the sockets `S` with the lists `L` and `C`, the disconnect records `T` and the
next address `N` is consistent, the sockets of `X` aside. -/
structure PeerWf (X : Set Addr) (S : Addr → Option Asocket) (N : Addr) (L C : List Addr)
    (T : TAddr → Option (List Addr)) : Prop where
  fresh : ∀ a s, S a = some s → a < N
  orphan : ∀ a ∈ X, ∃ s, S a = some s
  paired : ∀ a s p, a ∉ X → S a = some s → s.peer = some p →
    p ∉ X ∧ ∃ q, S p = some q ∧ q.peer = some a ∧ s.ops.pairs q.ops = true
  unpaired : ∀ a s, a ∉ X → S a = some s → s.peer = none → s.ops.isFd = true
  linked : ∀ r s, S r = some s → s.ops = .remote →
    ∃ t l, s.transport = some t ∧ T t = some l ∧ r ∈ l
  records : ∀ t l, T t = some l → l.Nodup ∧
    ∀ r ∈ l, ∃ s, S r = some s ∧ s.ops = .remote ∧ s.transport = some t
  listNodup : L.Nodup
  closingNodup : C.Nodup
  listed : ∀ a ∈ L, ∃ s, S a = some s ∧ s.closing = false ∧ s.ops.isLocal = true
  flushing : ∀ a ∈ C, ∃ s, S a = some s ∧ s.closing = true ∧ s.ops.isFd = true ∧ s.peer = none
  inList : ∀ a s, a ∉ X → S a = some s → s.ops.isLocal = true → s.closing = false → a ∈ L
  inClosing : ∀ a s, a ∉ X → S a = some s → s.closing = true → a ∈ C
  plain : ∀ a s, S a = some s → s.ops = .jdwp ∨ s.ops = .tracker → s.pkts = []

namespace PeerWf

variable {X : Set Addr} {S : Addr → Option Asocket} {N : Addr} {L C : List Addr}
  {T : TAddr → Option (List Addr)} {a p r : Addr} {s q : Asocket}

/-! ## Taking apart -/

/-- Severing a pair: whoever points into it is in it. -/
lemma sever (h : PeerWf X S N L C T) (hs : S a = some s) (hp : s.peer = some p) (ha : a ∉ X) :
    PeerWf (insert a (insert p X)) S N L C T := by
  obtain ⟨hpX, q, hq, hback, hpairs⟩ := h.paired a s p ha hs hp
  have hpaired := h.paired
  refine { h with orphan := ?_, paired := ?_, unpaired := ?_, inList := ?_, inClosing := ?_ }
  · grind [h.orphan]
  · grind
  · grind [h.unpaired]
  · grind [h.inList]
  · grind [h.inClosing]

lemma single (h : PeerWf X S N L C T) (hs : S a = some s) (hp : s.peer = none) :
    PeerWf (insert a X) S N L C T := by
  have hpaired := h.paired
  refine { h with orphan := ?_, paired := ?_, unpaired := ?_, inList := ?_, inClosing := ?_ }
  · grind [h.orphan]
  · grind
  · grind [h.unpaired]
  · grind [h.inList]
  · grind [h.inClosing]

/-- Rewriting an orphan, which keeps its kind, its transport and its list. -/
lemma rewrite (h : PeerWf X S N L C T) (hs : S a = some s) (ha : a ∈ X) (s' : Asocket)
    (hops : s'.ops = s.ops) (ht : s'.transport = s.transport) (hc : s'.closing = s.closing)
    (hp : s'.peer = none ∨ s'.peer = s.peer)
    (hpkts : s'.pkts = s.pkts) : PeerWf X (update S a (some s')) N L C T := by
  refine { h with
    fresh := ?_, orphan := ?_, paired := ?_, unpaired := ?_, linked := ?_, records := ?_,
    listed := ?_, flushing := ?_, inList := ?_, inClosing := ?_, plain := ?_ }
  · intro b t hb
    have := h.fresh b
    grind [update_apply]
  · grind [h.orphan, update_apply]
  · grind [h.paired, update_apply]
  · grind [h.unpaired, update_apply]
  · grind [h.linked, update_apply]
  · grind [h.records, update_apply]
  · grind [h.listed, update_apply]
  · grind [h.flushing, update_apply]
  · grind [h.inList, update_apply]
  · grind [h.inClosing, update_apply]
  · grind [h.plain, update_apply]

/-- Taking an orphan off the lists. -/
lemma unlist (h : PeerWf X S N L C T) (ha : a ∈ X) :
    PeerWf X S N (L.erase a) (C.erase a) T := by
  refine { h with
    listNodup := h.listNodup.erase a, closingNodup := h.closingNodup.erase a,
    listed := ?_, flushing := ?_, inList := ?_, inClosing := ?_ }
  · intro b hb
    exact h.listed b (List.mem_of_mem_erase hb)
  · intro b hb
    exact h.flushing b (List.mem_of_mem_erase hb)
  · intro b t hbX hb hlocal hclosing
    have hne : b ≠ a := fun hba => hbX (hba ▸ ha)
    exact (List.mem_erase_of_ne hne).mpr (h.inList b t hbX hb hlocal hclosing)
  · intro b t hbX hb hclosing
    have hne : b ≠ a := fun hba => hbX (hba ▸ ha)
    exact (List.mem_erase_of_ne hne).mpr (h.inClosing b t hbX hb hclosing)

/-- Freeing an orphan that is in no list. -/
lemma free (h : PeerWf X S N L C T) (hs : S a = some s) (ha : a ∈ X) (hops : s.ops ≠ .remote)
    (hl : a ∉ L) (hc : a ∉ C) : PeerWf (X \ {a}) (update S a none) N L C T := by
  refine { h with
    fresh := ?_, orphan := ?_, paired := ?_, unpaired := ?_, linked := ?_, records := ?_,
    listed := ?_, flushing := ?_, inList := ?_, inClosing := ?_, plain := ?_ }
  · intro b t hb
    have := h.fresh b
    grind [update_apply]
  · grind [h.orphan, update_apply]
  · grind [h.paired, update_apply]
  · grind [h.unpaired, update_apply]
  · grind [h.linked, update_apply]
  · grind [h.records, update_apply]
  · grind [h.listed, update_apply]
  · grind [h.flushing, update_apply]
  · grind [h.inList, update_apply]
  · grind [h.inClosing, update_apply]
  · grind [h.plain, update_apply]

/-- Freeing an orphaned remote socket together with its disconnect record. -/
lemma dropRemote (h : PeerWf X S N L C T) (hs : S r = some s) (hr : r ∈ X)
    (hops : s.ops = .remote) {t : TAddr} {l : List Addr} (ht : s.transport = some t)
    (hl : T t = some l) :
    PeerWf (X \ {r}) (update S r none) N L C (update T t (some (l.erase r))) := by
  have hnodup := (h.records t l hl).1
  have hmem : ∀ b, b ∈ l.erase r ↔ b ≠ r ∧ b ∈ l := fun b => hnodup.mem_erase_iff
  refine { h with
    fresh := ?_, orphan := ?_, paired := ?_, unpaired := ?_, linked := ?_, records := ?_,
    listed := ?_, flushing := ?_, inList := ?_, inClosing := ?_, plain := ?_ }
  · intro b t hb
    have := h.fresh b
    grind [update_apply]
  · grind [h.orphan, update_apply]
  · grind [h.paired, update_apply]
  · grind [h.unpaired, update_apply]
  · grind [h.linked, update_apply]
  · intro t' l' hl'
    by_cases htt : t' = t
    · subst htt
      rw [update_self, Option.some.injEq] at hl'
      subst hl'
      refine ⟨hnodup.erase r, fun b hb => ?_⟩
      obtain ⟨hbr, hb⟩ := (hmem b).mp hb
      obtain ⟨q, hq, hqops, hqt⟩ := (h.records _ _ hl).2 b hb
      exact ⟨q, by rw [update_of_ne hbr, hq], hqops, hqt⟩
    · rw [update_of_ne htt] at hl'
      obtain ⟨hnd, hrec⟩ := h.records t' l' hl'
      refine ⟨hnd, fun b hb => ?_⟩
      obtain ⟨q, hq, hqops, hqt⟩ := hrec b hb
      have hbr : b ≠ r := by grind
      exact ⟨q, by rw [update_of_ne hbr, hq], hqops, hqt⟩
  · grind [h.listed, update_apply, SocketOps.isLocal]
  · grind [h.flushing, update_apply, SocketOps.isFd]
  · grind [h.inList, update_apply]
  · grind [h.inClosing, update_apply]
  · grind [h.plain, update_apply]

/-- An orphan with something left to write moves to the closing list. -/
lemma retire (h : PeerWf X S N L C T) (hs : S a = some s) (ha : a ∈ X)
    (hops : s.ops.isFd = true) {s' : Asocket} (hops' : s'.ops = s.ops) (hp' : s'.peer = none)
    (hc' : s'.closing = true) :
    PeerWf (X \ {a}) (update S a (some s')) N (L.erase a) (C.erase a ++ [a]) T := by
  have hmemL : ∀ b, b ∈ L.erase a ↔ b ≠ a ∧ b ∈ L := fun b => h.listNodup.mem_erase_iff
  have hmemC : ∀ b, b ∈ C.erase a ↔ b ≠ a ∧ b ∈ C := fun b => h.closingNodup.mem_erase_iff
  refine {
    fresh := ?_, orphan := ?_, paired := ?_, unpaired := ?_, linked := ?_, records := ?_,
    listNodup := h.listNodup.erase a, closingNodup := ?_,
    listed := ?_, flushing := ?_, inList := ?_, inClosing := ?_, plain := ?_ }
  · intro b t hb
    have := h.fresh b
    grind [update_apply]
  · grind [h.orphan, update_apply]
  · grind [h.paired, update_apply]
  · grind [h.unpaired, update_apply, SocketOps.isFd]
  · grind [h.linked, update_apply, SocketOps.isFd]
  · grind [h.records, update_apply, SocketOps.isFd]
  · rw [List.nodup_append]
    refine ⟨h.closingNodup.erase a, by simp, ?_⟩
    grind
  · grind [h.listed, update_apply]
  · grind [h.flushing, update_apply]
  · grind [h.inList, update_apply]
  · grind [h.inClosing, update_apply]
  · grind [h.plain, update_apply, SocketOps.isFd]

/-! ## Building -/

/-- A new socket at the end of the list, to be paired. -/
lemma create (h : PeerWf X S N L C T) {s : Asocket} (hlocal : s.ops.isLocal = true)
    (hclosing : s.closing = false) (hpkts : s.pkts = []) :
    PeerWf (insert N X) (update S N (some s)) (N + 1) (L ++ [N]) C T := by
  have hN : ∀ b t, S b = some t → b ≠ N := fun b t hb => Nat.ne_of_lt (h.fresh b t hb)
  refine { h with
    fresh := ?_, orphan := ?_, paired := ?_, unpaired := ?_, linked := ?_, records := ?_,
    listNodup := ?_, listed := ?_, flushing := ?_, inList := ?_, inClosing := ?_, plain := ?_ }
  · intro b t hb
    have := h.fresh b
    grind [update_apply]
  · rintro b (rfl | hb)
    · exact ⟨s, update_self ..⟩
    · grind [h.orphan b hb, update_apply]
  · grind [h.paired, update_apply]
  · grind [h.unpaired, update_apply]
  · grind [h.linked, update_apply, SocketOps.isLocal]
  · grind [h.records, update_apply]
  · rw [List.nodup_append]
    refine ⟨h.listNodup, by simp, ?_⟩
    grind [h.listed]
  · grind [h.listed, update_apply]
  · grind [h.flushing, update_apply]
  · grind [h.inList, update_apply]
  · grind [h.inClosing, update_apply]
  · grind [h.plain, update_apply]

/-- Pairing a socket in the list with a new smart socket. -/
lemma accept (h : PeerWf X S N L C T) (hs : S a = some s) (ha : a ∈ X) (hops : s.ops = .fd)
    (hclosing : s.closing = false) (hl : a ∈ L) {ss : Asocket} (hss : ss.ops = .smart)
    (hpeer : ss.peer = some a) (hssc : ss.closing = false) :
    PeerWf (X \ {a}) (update (update S N (some ss)) a (some { s with peer := some N })) (N + 1)
      L C T := by
  have hN : ∀ b t, S b = some t → b ≠ N := fun b t hb => Nat.ne_of_lt (h.fresh b t hb)
  have hpaired := h.paired
  refine { h with
    fresh := ?_, orphan := ?_, paired := ?_, unpaired := ?_, linked := ?_, records := ?_,
    listed := ?_, flushing := ?_, inList := ?_, inClosing := ?_, plain := ?_ }
  · intro b t hb
    have := h.fresh b
    grind [update_apply]
  · grind [h.orphan, update_apply]
  · grind [update_apply, SocketOps.pairs, h.orphan]
  · grind [h.unpaired, update_apply]
  · grind [h.linked, update_apply]
  · grind [h.records, update_apply]
  · grind [h.listed, update_apply]
  · grind [h.flushing, update_apply]
  · grind [h.inList, update_apply, SocketOps.isLocal]
  · grind [h.inClosing, update_apply]
  · grind [h.plain, update_apply]

/-- Pairing a socket in the list with a new remote socket. -/
lemma pair (h : PeerWf X S N L C T) (hs : S a = some s) (hp : s.peer = none)
    (hlocal : s.ops.isLocal = true) (hclosing : s.closing = false) (hl : a ∈ L)
    {t : TAddr} {l : List Addr} (hT : T t = some l) {q : Asocket} (hq : q.ops = .remote)
    (hpeer : q.peer = some a) (hqt : q.transport = some t) (hqc : q.closing = false) :
    PeerWf (X \ {a}) (update (update S N (some q)) a (some { s with peer := some N })) (N + 1)
      L C (update T t (some (l ++ [N]))) := by
  have hN : ∀ b t, S b = some t → b ≠ N := fun b t hb => Nat.ne_of_lt (h.fresh b t hb)
  have hpaired := h.paired
  refine { h with
    fresh := ?_, orphan := ?_, paired := ?_, unpaired := ?_, linked := ?_, records := ?_,
    listed := ?_, flushing := ?_, inList := ?_, inClosing := ?_, plain := ?_ }
  · intro b t hb
    have := h.fresh b
    grind [update_apply]
  · grind [h.orphan, update_apply]
  · grind [update_apply, SocketOps.pairs, SocketOps.isLocal, h.orphan]
  · grind [h.unpaired, update_apply]
  · grind [h.linked, update_apply, SocketOps.isLocal]
  · intro t' l' hl'
    by_cases htt : t' = t
    · subst htt
      rw [update_self, Option.some.injEq] at hl'
      subst hl'
      obtain ⟨hnd, hrec⟩ := h.records _ _ hT
      refine ⟨?_, ?_⟩
      · rw [List.nodup_append]
        refine ⟨hnd, by simp, ?_⟩
        grind
      · grind [update_apply, SocketOps.isLocal]
    · rw [update_of_ne htt] at hl'
      obtain ⟨hnd, hrec⟩ := h.records t' l' hl'
      refine ⟨hnd, ?_⟩
      grind [update_apply, SocketOps.isLocal]
  · grind [h.listed, update_apply]
  · grind [h.flushing, update_apply]
  · grind [h.inList, update_apply, SocketOps.isLocal]
  · grind [h.inClosing, update_apply]
  · grind [h.plain, update_apply]

/-- The client of a smart socket is cut loose from it. -/
lemma handOver (h : PeerWf X S N L C T) (hs : S a = some s) (ha : a ∈ X) (hops : s.ops = .fd)
    (hclosing : s.closing = false) {s' : Asocket} (hops' : s'.ops = .fdNotify)
    (hp' : s'.peer = none) (hc' : s'.closing = false) :
    PeerWf X (update S a (some s')) N L C T := by
  refine { h with
    fresh := ?_, orphan := ?_, paired := ?_, unpaired := ?_, linked := ?_, records := ?_,
    listed := ?_, flushing := ?_, inList := ?_, inClosing := ?_, plain := ?_ }
  · intro b t hb
    have := h.fresh b
    grind [update_apply]
  · grind [h.orphan, update_apply]
  · grind [h.paired, update_apply]
  · grind [h.unpaired, update_apply]
  · grind [h.linked, update_apply]
  · grind [h.records, update_apply]
  · grind [h.listed, update_apply, SocketOps.isLocal]
  · grind [h.flushing, update_apply]
  · grind [h.inList, update_apply]
  · grind [h.inClosing, update_apply]
  · grind [h.plain, update_apply]

/-- A socket that waits for its stream is in order without a peer. -/
lemma settle (h : PeerWf X S N L C T) (hs : S a = some s) (hops : s.ops.isFd = true)
    (hp : s.peer = none) (hclosing : s.closing = false) (hl : a ∈ L) :
    PeerWf (X \ {a}) S N L C T := by
  have hpaired := h.paired
  refine { h with orphan := ?_, paired := ?_, unpaired := ?_, inList := ?_, inClosing := ?_ }
  · grind [h.orphan]
  · grind
  · grind [h.unpaired]
  · grind [h.inList]
  · grind [h.inClosing]

/-! ## Data -/

/-- Changing what a socket holds, or its notify functions for the plain ones. -/
lemma data (h : PeerWf X S N L C T) (hs : S a = some s) (s' : Asocket)
    (hops : s'.ops = s.ops ∨ s.ops = .fdNotify ∧ s'.ops = .fd) (hp : s'.peer = s.peer)
    (ht : s'.transport = s.transport) (hc : s'.closing = s.closing)
    (hpkts : s'.pkts = s.pkts ∨ s.ops.isFd = true ∨ s.ops = .smart) :
    PeerWf X (update S a (some s')) N L C T := by
  have hpairs : ∀ k, s.ops.pairs k = true → s'.ops.pairs k = true := by
    rcases hops with hops | ⟨hn, hf⟩
    · rw [hops]
      exact fun _ h => h
    · rw [hn, hf]
      intro k
      cases k <;> decide
  have hpairs' : ∀ k, SocketOps.pairs k s.ops = true → SocketOps.pairs k s'.ops = true := by
    rcases hops with hops | ⟨hn, hf⟩
    · rw [hops]
      exact fun _ h => h
    · rw [hn, hf]
      intro k
      cases k <;> decide
  have hlocal : s'.ops.isLocal = s.ops.isLocal := by
    rcases hops with hops | ⟨hn, hf⟩
    · rw [hops]
    · rw [hn, hf]
      rfl
  have hfd : s'.ops.isFd = s.ops.isFd := by
    rcases hops with hops | ⟨hn, hf⟩
    · rw [hops]
    · rw [hn, hf]
      rfl
  have hpaired := h.paired
  refine { h with
    fresh := ?_, orphan := ?_, paired := ?_, unpaired := ?_, linked := ?_, records := ?_,
    listed := ?_, flushing := ?_, inList := ?_, inClosing := ?_, plain := ?_ }
  · intro b t hb
    have := h.fresh b
    grind [update_apply]
  · grind [h.orphan, update_apply]
  · grind [update_apply]
  · grind [h.unpaired, update_apply]
  · grind [h.linked, update_apply]
  · grind [h.records, update_apply]
  · grind [h.listed, update_apply]
  · grind [h.flushing, update_apply]
  · grind [h.inList, update_apply]
  · grind [h.inClosing, update_apply]
  · grind [h.plain, update_apply, SocketOps.isFd]

/-- Transports without disconnect records come and go. -/
lemma lists {T' : TAddr → Option (List Addr)} (h : PeerWf X S N L C T)
    (hT : ∀ t, T' t = T t ∨
      (∀ l, T t = some l → l = []) ∧ ∀ l, T' t = some l → l = []) :
    PeerWf X S N L C T' := by
  refine { h with linked := ?_, records := ?_ }
  · intro r s hs hops
    obtain ⟨t, l, ht, hl, hr⟩ := h.linked r s hs hops
    rcases hT t with heq | ⟨hnil, -⟩
    · exact ⟨t, l, ht, heq.trans hl, hr⟩
    · rw [hnil l hl] at hr
      cases hr
  · intro t l hl
    rcases hT t with heq | ⟨-, hnil⟩
    · exact h.records t l (heq ▸ hl)
    · rw [hnil l hl]
      simp

end PeerWf

end Adbd
