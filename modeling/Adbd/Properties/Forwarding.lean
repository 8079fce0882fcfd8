import Adbd.Model.Listeners
import Adbd.Properties.TransportChoice
import Mathlib.Data.List.Nodup
import Mathlib.Data.List.Perm.Subperm

/-!
# The forwarding table

Installing, rebinding and removing a listener edit two intrusive lists, and so does a transport
that goes away.  The invariant has one half for each of them.  `Linkage` says which record is in
which disconnect list, in terms of a function that names the transport of each record, and has a
lemma for each way a record comes and goes; `Listing` says what `listener_list` holds.

Every operation keeps both (`Sound`), and the walks of the source find what they look for.  One
thing does not hold: the listener of the smart sockets, which `install_listener` and
`remove_all_listeners` take care to spare, can be removed by `killforward:` with its name, since
`remove_listener` makes no such test (`protects_iff`).
-/

namespace Adbd

namespace ForwardTable

open Acquire Daemon Function Transition

/-! ## Disconnect lists -/

/-- The sentinel of a transport. -/
def headOf (t : TAddr) : Option Adisconnect := some (.head t)

lemma headOf_injective : Injective headOf := by
  intro t u h
  exact Adisconnect.head.inj (Option.some.inj h)

/-- Each record is linked for the transport `holder` names, and for no other. -/
structure Linkage (R : Ring.Links Adisconnect) (live : Set TAddr)
    (holder : Adisconnect → Option TAddr) (ds : TAddr → List Adisconnect) : Prop where
  rings : Ring.Rings R headOf live ds
  linked : ∀ t ∈ live, ∀ d, d ∈ ds t ↔ holder d = some t
  holders : ∀ d t, holder d = some t → t ∈ live

namespace Linkage

variable {R : Ring.Links Adisconnect} {live : Set TAddr} {holder : Adisconnect → Option TAddr}
  {ds : TAddr → List Adisconnect} {d : Adisconnect} {t : TAddr}

/-- `add_transport_disconnect` of a record that is not linked. -/
lemma add (h : Linkage R live holder ds) (hd : holder d = none) (hhead : ∀ u, d ≠ .head u)
    (ht : t ∈ live) :
    ∃ R' ds', R.linkBefore (headOf t) d = some R' ∧
      Linkage R' live (update holder d (some t)) ds' := by
  have hfree : ∀ u ∈ live, d ∉ ds u := by
    intro u hu hmem
    rw [h.linked u hu, hd] at hmem
    cases hmem
  obtain ⟨R', hlink, hrings⟩ := h.rings.linkBefore headOf_injective ht hfree
    fun u heq => hhead u (Option.some.inj heq).symm
  refine ⟨R', _, hlink, hrings, fun u hu e => ?_, fun e u he => ?_⟩
  · rcases eq_or_ne u t with rfl | hut
    · rw [update_self, List.mem_append, List.mem_singleton, h.linked u hu]
      rcases eq_or_ne e d with rfl | hed
      · simp
      · simp [hed]
    · rw [update_of_ne hut, h.linked u hu]
      rcases eq_or_ne e d with rfl | hed
      · rw [update_self, hd]
        exact iff_of_false nofun fun heq => hut (Option.some.inj heq).symm
      · rw [update_of_ne hed]
  · rcases eq_or_ne e d with rfl | hed
    · rw [update_self] at he
      exact Option.some.inj he ▸ ht
    · rw [update_of_ne hed] at he
      exact h.holders e u he

/-- `remove_transport_disconnect` of a record that is linked. -/
lemma remove (h : Linkage R live holder ds) (hd : holder d = some t) :
    ∃ R', R.isolate d = some R' ∧
      Linkage R' live (update holder d none) fun u => (ds u).erase d := by
  have ht := h.holders d t hd
  have hmem := (h.linked t ht d).mpr hd
  obtain ⟨R', hisolate, hrings⟩ := h.rings.isolate headOf_injective ht hmem
  refine ⟨R', hisolate, hrings.congr fun u hu => ?_, fun u hu e => ?_, fun e u he => ?_⟩
  · rcases eq_or_ne u t with rfl | hut
    · rw [update_self]
    · rw [update_of_ne hut]
      exact List.erase_of_not_mem fun hdu => hut (h.rings.apart u hu t ht d hdu hmem)
  · rw [(h.rings.nodup u hu).mem_erase_iff, h.linked u hu]
    rcases eq_or_ne e d with rfl | hed
    · simp
    · simp [hed]
  · rcases eq_or_ne e d with rfl | hed
    · rw [update_self] at he
      cases he
    · rw [update_of_ne hed] at he
      exact h.holders e u he

/-- A record that is not linked is freed. -/
lemma forget (h : Linkage R live holder ds) (hd : holder d = none) :
    Linkage R live (update holder d none) fun u => (ds u).erase d := by
  have hfree : ∀ u ∈ live, d ∉ ds u := by
    intro u hu hmem
    rw [h.linked u hu, hd] at hmem
    cases hmem
  rw [← hd, update_eq_self]
  have hsame : ∀ u ∈ live, (ds u).erase d = ds u := fun u hu =>
    List.erase_of_not_mem (hfree u hu)
  refine ⟨h.rings.congr hsame, fun u hu e => ?_, h.holders⟩
  rw [hsame u hu]
  exact h.linked u hu e

/-- A transport is registered. -/
lemma register (h : Linkage R live holder ds) (ht : t ∉ live)
    (hhead : ∀ u, holder (.head u) = none) :
    Linkage (R.init (headOf t)) (insert t live) holder (update ds t []) := by
  have hfree : ∀ u ∈ live, ∀ d ∈ ds u, headOf t ≠ some d := by
    rintro u hu d hd heq
    rw [h.linked u hu, ← Option.some.inj heq, hhead] at hd
    cases hd
  refine ⟨h.rings.init headOf_injective ht hfree, fun u hu d => ?_, fun d u hd => ?_⟩
  · rcases eq_or_ne u t with rfl | hut
    · rw [update_self]
      exact iff_of_false List.not_mem_nil fun hd => ht (h.holders d u hd)
    · rw [update_of_ne hut, h.linked u (hu.resolve_left hut)]
  · exact .inr (h.holders d u hd)

/-- A transport is freed that no record is linked for. -/
lemma retire (h : Linkage R live holder ds) (ht : t ∈ live) (hds : ds t = []) :
    Linkage R (live \ {t}) holder ds := by
  refine ⟨h.rings.mono fun u hu => hu.1, fun u hu => h.linked u hu.1, fun d u hd => ?_⟩
  refine ⟨h.holders d u hd, ?_⟩
  rintro rfl
  have hmem := (h.linked u ht d).mpr hd
  rw [hds] at hmem
  exact List.not_mem_nil hmem

end Linkage

/-! ## `listener_list` -/

/-- `listener_list` holds the listeners that have not been freed, and their names differ. -/
structure Listing (R : Ring.Links LAddr) (listeners : LAddr → Option Alistener)
    (ls : List LAddr) : Prop where
  ring : Ring.Rings R (fun _ : Unit => none) Set.univ fun _ => ls
  live : ∀ l, l ∈ ls ↔ ∃ x, listeners l = some x
  names : ∀ l k x y, listeners l = some x → listeners k = some y → x.localName = y.localName →
    l = k

namespace Listing

variable {R : Ring.Links LAddr} {listeners : LAddr → Option Alistener} {ls : List LAddr}
  {l : LAddr} {x y : Alistener}

lemma nodup (h : Listing R listeners ls) : ls.Nodup := h.ring.nodup () trivial

/-- The first step of a walk over the list. -/
lemma first (h : Listing R listeners ls) : R.next none = some (Ring.firstOf ls none) :=
  h.ring.next_head (i := ()) trivial

/-- A further step. -/
lemma next {kept rest : List LAddr} (h : Listing R listeners (kept ++ l :: rest)) :
    R.next (some l) = some (Ring.firstOf rest none) :=
  h.ring.next_of_mem (i := ()) trivial rfl

/-- A new listener is linked. -/
lemma install (h : Listing R listeners ls) (hl : listeners l = none)
    (hname : ∀ k y, listeners k = some y → y.localName ≠ x.localName) :
    ∃ R', R.linkBefore none l = some R' ∧
      Listing R' (update listeners l (some x)) (ls ++ [l]) := by
  have hnew : l ∉ ls := by
    rw [h.live, hl]
    rintro ⟨y, hy⟩
    cases hy
  obtain ⟨R', hlink, hring⟩ := h.ring.linkBefore (i := ()) (fun _ _ _ => rfl) trivial
    (fun _ _ => hnew) fun _ => nofun
  refine ⟨R', hlink, ?_, fun k => ?_, fun j k u v hu hv huv => ?_⟩
  · rwa [show update (fun _ : Unit => ls) () (ls ++ [l]) = fun _ => ls ++ [l] from
      funext fun _ => update_self ..] at hring
  · rw [List.mem_append, List.mem_singleton, h.live]
    rcases eq_or_ne k l with rfl | hkl
    · simp
    · simp [hkl]
  · rcases eq_or_ne j l with rfl | hjl
    · rcases eq_or_ne k j with rfl | hkj
      · rfl
      · rw [update_self, Option.some.injEq] at hu
        rw [update_of_ne hkj] at hv
        exact absurd (hu ▸ huv.symm) (hname k v hv)
    · rw [update_of_ne hjl] at hu
      rcases eq_or_ne k l with rfl | hkl
      · rw [update_self, Option.some.injEq] at hv
        exact absurd (hv ▸ huv) (hname j u hu)
      · rw [update_of_ne hkl] at hv
        exact h.names j k u v hu hv huv

/-- A listener is unlinked and freed. -/
lemma free (h : Listing R listeners ls) (hl : listeners l = some x) :
    ∃ R', R.isolate l = some R' ∧ Listing R' (update listeners l none) (ls.erase l) := by
  obtain ⟨R', hisolate, hring⟩ := h.ring.isolate (i := ()) (fun _ _ _ => rfl) trivial
    ((h.live l).mpr ⟨x, hl⟩)
  refine ⟨R', hisolate, ?_, fun k => ?_, fun j k u v hu hv => ?_⟩
  · rwa [show update (fun _ : Unit => ls) () (ls.erase l) = fun _ => ls.erase l from
      funext fun _ => update_self ..] at hring
  · rw [h.nodup.mem_erase_iff, h.live]
    rcases eq_or_ne k l with rfl | hkl
    · simp
    · simp [hkl]
  · have hold : ∀ m w, update listeners l none m = some w → listeners m = some w := by
      intro m w hw
      rcases eq_or_ne m l with rfl | hml
      · rw [update_self] at hw
        cases hw
      · rwa [update_of_ne hml] at hw
    exact h.names j k u v (hold j u hu) (hold k v hv)

/-- A listener is changed, but not its name. -/
lemma rewrite (h : Listing R listeners ls) (hl : listeners l = some x)
    (hname : y.localName = x.localName) : Listing R (update listeners l (some y)) ls := by
  -- every listener was there before, under the same name
  have hold : ∀ m w, update listeners l (some y) m = some w →
      ∃ v, listeners m = some v ∧ v.localName = w.localName := by
    intro m w hw
    rcases eq_or_ne m l with rfl | hml
    · rw [update_self, Option.some.injEq] at hw
      exact ⟨x, hl, hw ▸ hname.symm⟩
    · rw [update_of_ne hml] at hw
      exact ⟨w, hw, rfl⟩
  refine ⟨h.ring, fun k => ?_, fun j k u v hu hv huv => ?_⟩
  · rw [h.live]
    rcases eq_or_ne k l with rfl | hkl
    · simp [hl]
    · rw [update_of_ne hkl]
  · obtain ⟨u', hu', hun⟩ := hold j u hu
    obtain ⟨v', hv', hvn⟩ := hold k v hv
    exact h.names j k u' v' hu' hv' (hun.trans (huv.trans hvn.symm))

end Listing

/-! ## The table -/

/-- The transport each record is linked for. -/
def holderOf (listeners : LAddr → Option Alistener) (remotes : Addr → Option TAddr) :
    Adisconnect → Option TAddr
  | .head _ => none
  | .listener l => (listeners l).bind (·.transport)
  | .remote a => remotes a

lemma holderOf_listener {listeners : LAddr → Option Alistener} {remotes : Addr → Option TAddr}
    {l : LAddr} {x : Option Alistener} : holderOf (update listeners l x) remotes =
      update (holderOf listeners remotes) (.listener l) (x.bind (·.transport)) := by
  funext d
  cases d with
  | listener k => by_cases hk : k = l <;> simp [holderOf, hk]
  | _ => simp [holderOf]

lemma holderOf_remote {listeners : LAddr → Option Alistener} {remotes : Addr → Option TAddr}
    {a : Addr} {t : Option TAddr} : holderOf listeners (update remotes a t) =
      update (holderOf listeners remotes) (.remote a) t := by
  funext d
  cases d with
  | remote b => by_cases hb : b = a <;> simp [holderOf, hb]
  | _ => simp [holderOf]

lemma addTransportDisconnect_eq {T : ForwardTable} {t : TAddr} {d : Adisconnect}
    {R : Ring.Links Adisconnect} (ht : (T.transports t).isSome)
    (hR : T.disconnects.linkBefore (headOf t) d = some R) :
    T.addTransportDisconnect t d = .ok { T with disconnects := R } := by
  obtain ⟨x, hx⟩ := Option.isSome_iff_exists.mp ht
  rw [addTransportDisconnect, derefT, hx]
  change nonNull (T.disconnects.linkBefore (headOf t) d) >>= _ = _
  rw [hR]
  rfl

lemma removeTransportDisconnect_eq {T : ForwardTable} {d : Adisconnect}
    {R : Ring.Links Adisconnect} (hR : T.disconnects.isolate d = some R) :
    T.removeTransportDisconnect d = .ok { T with disconnects := R } := by
  rw [removeTransportDisconnect, hR]
  rfl

/-- The transports that have not been freed. -/
def live (T : ForwardTable) : Set TAddr := {t | (T.transports t).isSome}

/-- The invariant: `listener_list` holds `ls`, and `ds t` is the disconnect list of `t`. -/
structure Sound (T : ForwardTable) (ls : List LAddr) (ds : TAddr → List Adisconnect) : Prop where
  listing : Listing T.listenerList T.listeners ls
  linkage : Linkage T.disconnects T.live (holderOf T.listeners T.remotes) ds
  internal : ∀ l x, T.listeners l = some x → x.transport = none → x.internal = true
  freshListener : ∀ l, T.nextAddr ≤ l → T.listeners l = none
  freshRemote : ∀ a, T.nextRemote ≤ a → T.remotes a = none
  freshTransport : ∀ t, T.nextTAddr ≤ t → T.transports t = none
  registered : ∀ t ∈ T.transportList, t ∈ T.live
  once : T.transportList.Nodup

namespace Sound

variable {T : ForwardTable} {ls : List LAddr} {ds : TAddr → List Adisconnect} {l : LAddr}
  {x y : Alistener} {t : TAddr}

/-- There are at most as many listeners as have been allocated. -/
lemma length_le (h : Sound T ls ds) : ls.length ≤ T.nextAddr := by
  have hsub : ls ⊆ List.range T.nextAddr := by
    intro l hl
    obtain ⟨x, hx⟩ := (h.listing.live l).mp hl
    by_contra hout
    rw [List.mem_range, not_lt] at hout
    rw [h.freshListener l hout] at hx
    cases hx
  have hlen := (List.subperm_of_subset h.listing.nodup hsub).length_le
  rwa [List.length_range] at hlen

/-- `free_listener`. -/
lemma freeListener (h : Sound T ls ds) (hx : T.listeners l = some x) :
    ∃ R Q, T.freeListener l = .ok { T with
        listenerList := R
        disconnects := Q
        listeners := update T.listeners l none } ∧
      Sound { T with
        listenerList := R
        disconnects := Q
        listeners := update T.listeners l none } (ls.erase l)
        fun u => (ds u).erase (.listener l) := by
  obtain ⟨R, hisolate, hlisting⟩ := h.listing.free hx
  have hnext : ∃ p, T.listenerList.next (some l) = some p := by
    obtain ⟨l₁, l₂, hl⟩ := List.append_of_mem ((h.listing.live l).mpr ⟨x, hx⟩)
    exact ⟨_, (hl ▸ h.listing).next⟩
  obtain ⟨p, hp⟩ := hnext
  have hholder : holderOf T.listeners T.remotes (.listener l) = x.transport := by
    rw [holderOf, hx]
    rfl
  have hold : ∀ k y, update T.listeners l none k = some y → T.listeners k = some y := by
    intro k y hy
    rcases eq_or_ne k l with rfl | hkl
    · rw [update_self] at hy
      cases hy
    · rwa [update_of_ne hkl] at hy
  have hfresh : ∀ k, T.nextAddr ≤ k → update T.listeners l none k = none := by
    intro k hk
    rcases eq_or_ne k l with rfl | hkl
    · rw [update_self]
    · rw [update_of_ne hkl]
      exact h.freshListener k hk
  have hlinkage : ∃ Q, (if x.transport = none then pure { T with listenerList := R }
      else removeTransportDisconnect (.listener l) { T with listenerList := R }) =
        (.ok { T with listenerList := R, disconnects := Q } : Except Halt ForwardTable) ∧
      Linkage Q T.live (update (holderOf T.listeners T.remotes) (.listener l) none)
        fun u => (ds u).erase (.listener l) := by
    cases ht : x.transport with
    | none => exact ⟨_, rfl, h.linkage.forget (hholder.trans ht)⟩
    | some t =>
      obtain ⟨Q, hQ, hlinkage⟩ := h.linkage.remove (hholder.trans ht)
      exact ⟨Q, removeTransportDisconnect_eq hQ, hlinkage⟩
  obtain ⟨Q, hrun, hlinkage⟩ := hlinkage
  refine ⟨R, Q, ?_, hlisting, ?_, ?_, hfresh, h.freshRemote, h.freshTransport, h.registered,
    h.once⟩
  · have hderef : T.deref l = .ok x := by
      rw [deref, hx]
    rw [ForwardTable.freeListener, hp, hisolate]
    refine bind_eq_ok_iff.mpr ⟨x, hderef, bind_eq_ok_iff.mpr ⟨R, rfl, ?_⟩⟩
    refine bind_eq_ok_iff.mpr ⟨{ T with listenerList := R, disconnects := Q }, ?_, rfl⟩
    cases ht : x.transport with
    | none => rwa [if_pos ht] at hrun
    | some t => rwa [if_neg (by simp [ht])] at hrun
  · rw [holderOf_listener]
    exact hlinkage
  · exact fun k y hy => h.internal k y (hold k y hy)

/-- `remove_transport_disconnect` of a live remote socket, which is then freed. -/
lemma freeRemote {a : Addr} (h : Sound T ls ds) (ha : T.remotes a = some t) :
    ∃ Q, T.removeTransportDisconnect (.remote a) = .ok { T with disconnects := Q } ∧
      Sound { T with disconnects := Q, remotes := update T.remotes a none } ls
        fun u => (ds u).erase (.remote a) := by
  obtain ⟨Q, hQ, hlinkage⟩ := h.linkage.remove (d := .remote a) ha
  refine ⟨Q, removeTransportDisconnect_eq hQ, h.listing, ?_, h.internal, h.freshListener, ?_,
    h.freshTransport, h.registered, h.once⟩
  · rw [holderOf_remote]
    exact hlinkage
  · intro b hb
    rcases eq_or_ne b a with rfl | hba
    · exact update_self ..
    · exact (update_of_ne hba ..).trans (h.freshRemote b hb)

/-! ## The walks -/

/-- The walk for a local name. -/
lemma find {kept rest : List LAddr} (h : Sound T (kept ++ rest) ds) (name : List UInt8) {n : ℕ}
    (hn : rest.length < n) :
    (∃ l x, T.findListener name n (Ring.firstOf rest none) = .ok (some l) ∧
      T.listeners l = some x ∧ x.localName = name) ∨
    T.findListener name n (Ring.firstOf rest none) = .ok none ∧
      ∀ l ∈ rest, ∀ x, T.listeners l = some x → x.localName ≠ name := by
  induction rest generalizing kept n with
  | nil =>
    cases n with
    | zero => exact absurd hn (Nat.not_lt_zero _)
    | succ n => exact .inr ⟨rfl, nofun⟩
  | cons l rest ih =>
    cases n with
    | zero => exact absurd hn (Nat.not_lt_zero _)
    | succ n =>
      obtain ⟨x, hx⟩ := (h.listing.live l).mp (List.mem_append_right _ (List.mem_cons_self ..))
      have hstep : T.findListener name (n + 1) (Ring.firstOf (l :: rest) none) =
          if name = x.localName then .ok (some l)
          else T.findListener name n (Ring.firstOf rest none) := by
        change T.findListener name (n + 1) (some l) = _
        rw [findListener, deref, hx, h.listing.next]
        rfl
      rw [hstep]
      by_cases hname : name = x.localName
      · rw [if_pos hname]
        exact .inl ⟨l, x, rfl, hx, hname.symm⟩
      · rw [if_neg hname]
        have h' : Sound T ((kept ++ [l]) ++ rest) ds := by
          rwa [List.append_assoc, List.singleton_append]
        rcases ih h' (Nat.lt_of_succ_lt_succ hn) with hfound | ⟨hnone, hother⟩
        · exact .inl hfound
        · refine .inr ⟨hnone, fun k hk y hy => ?_⟩
          rcases List.mem_cons.mp hk with rfl | hk
          · rw [hx, Option.some.injEq] at hy
            exact fun heq => hname (hy ▸ heq.symm)
          · exact hother k hk y hy

/-- The search of `install_listener` and `remove_listener`. -/
lemma lookup (h : Sound T ls ds) (name : List UInt8) :
    T.listenerList.next none = some (Ring.firstOf ls none) ∧
      ((∃ l x, T.findListener name (T.nextAddr + 1) (Ring.firstOf ls none) = .ok (some l) ∧
        T.listeners l = some x ∧ x.localName = name) ∨
      T.findListener name (T.nextAddr + 1) (Ring.firstOf ls none) = .ok none ∧
        ∀ l x, T.listeners l = some x → x.localName ≠ name) := by
  refine ⟨h.listing.first, ?_⟩
  rcases @find _ ds [] ls h name _ (Nat.lt_succ_of_le h.length_le) with hfound | ⟨hnone, hother⟩
  · exact .inl hfound
  · exact .inr ⟨hnone, fun l x hx => hother l ((h.listing.live l).mpr ⟨x, hx⟩) x hx⟩

/-- The loop of `remove_all_listeners` spares what it is to spare. -/
lemma removeFrom {kept rest : List LAddr} (h : Sound T (kept ++ rest) ds) {n : ℕ}
    (hn : rest.length < n) :
    ∃ T' ls' ds', removeListenersFrom n (Ring.firstOf rest none) T = .ok T' ∧ Sound T' ls' ds' ∧
      ∀ l x, T.listeners l = some x → x.internal = true → T'.listeners l = some x := by
  induction rest generalizing kept n T ds with
  | nil =>
    cases n with
    | zero => exact absurd hn (Nat.not_lt_zero _)
    | succ n => exact ⟨T, _, ds, rfl, h, fun l x hx _ => hx⟩
  | cons l rest ih =>
    cases n with
    | zero => exact absurd hn (Nat.not_lt_zero _)
    | succ n =>
      have hmem : l ∈ kept ++ l :: rest := List.mem_append_right _ (List.mem_cons_self ..)
      obtain ⟨x, hx⟩ := (h.listing.live l).mp hmem
      have hstep : removeListenersFrom (n + 1) (Ring.firstOf (l :: rest) none) T =
          if x.internal then removeListenersFrom n (Ring.firstOf rest none) T
          else T.freeListener l >>= removeListenersFrom n (Ring.firstOf rest none) := by
        change removeListenersFrom (n + 1) (some l) T = _
        rw [removeListenersFrom, deref, hx, h.listing.next]
        rfl
      rw [hstep]
      have hlen := Nat.lt_of_succ_lt_succ hn
      by_cases hint : x.internal = true
      · rw [if_pos hint]
        have h' : Sound T ((kept ++ [l]) ++ rest) ds := by
          rwa [List.append_assoc, List.singleton_append]
        exact ih h' hlen
      · rw [if_neg hint]
        obtain ⟨R, Q, hfree, h'⟩ := h.freeListener hx
        have hkept : l ∉ kept := fun hl =>
          (List.nodup_append.mp h.listing.nodup).2.2 l hl l (List.mem_cons_self ..) rfl
        rw [List.erase_append_right _ hkept, List.erase_cons_head] at h'
        obtain ⟨T', ls', ds', hrun, hsound, hspared⟩ := ih h' hlen
        refine ⟨T', ls', ds', ?_, hsound, fun k y hy hyint => hspared k y ?_ hyint⟩
        · rw [hfree]
          exact hrun
        · rcases eq_or_ne k l with rfl | hkl
          · rw [hx, Option.some.injEq] at hy
            exact absurd (hy ▸ hyint) hint
          · exact (update_of_ne hkl ..).trans hy

/-! ## Removing, rebinding and installing -/

lemma holder_listener (hx : T.listeners l = some x) :
    holderOf T.listeners T.remotes (.listener l) = x.transport := by
  rw [holderOf, hx]
  rfl

/-- A change of the place a listener connects to, to a transport it had before or to another. -/
lemma rewrite {R : Ring.Links Adisconnect} {ds' : TAddr → List Adisconnect} (h : Sound T ls ds)
    (hx : T.listeners l = some x) (hname : y.localName = x.localName)
    (hy : y.transport = none → y.internal = true)
    (hR : Linkage R T.live
      (update (holderOf T.listeners T.remotes) (.listener l) y.transport) ds') :
    Sound { T with listeners := update T.listeners l (some y), disconnects := R } ls ds' := by
  refine ⟨h.listing.rewrite hx hname, ?_, fun k z hz => ?_, fun k hk => ?_, h.freshRemote,
    h.freshTransport, h.registered, h.once⟩
  · rw [holderOf_listener]
    exact hR
  · change update T.listeners l (some y) k = some z at hz
    rcases eq_or_ne k l with rfl | hkl
    · rw [update_self, Option.some.injEq] at hz
      exact hz ▸ hy
    · rw [update_of_ne hkl] at hz
      exact h.internal k z hz
  · rcases eq_or_ne k l with rfl | hkl
    · have hnone := h.freshListener k hk
      rw [hx] at hnone
      cases hnone
    · exact (update_of_ne hkl ..).trans (h.freshListener k hk)

end Sound

/-- Listeners whose target starts with a star are left as they are. -/
def Spares (T T' : ForwardTable) : Prop :=
  ∀ l x, T.listeners l = some x → x.internal = true → T'.listeners l = some x

/-- What an operation that may refuse leaves behind. -/
structure Settles (T : ForwardTable) (ok : Prop) (T' : ForwardTable) : Prop where
  sound : ∃ ls ds, Sound T' ls ds
  refused : ¬ok → T' = T
  spares : Spares T T'

lemma Settles.refuse {T : ForwardTable} {ok : Prop} {ls : List LAddr}
    {ds : TAddr → List Adisconnect} (h : Sound T ls ds) : Settles T ok T :=
  ⟨⟨ls, ds, h⟩, fun _ => rfl, fun _ _ hx _ => hx⟩

namespace Sound

variable {T : ForwardTable} {ls : List LAddr} {ds : TAddr → List Adisconnect} {l : LAddr}
  {x y : Alistener} {t : TAddr}

/-- A listener that is not spared is one of the others. -/
lemma spares_update (hx : T.listeners l = some x) (hint : ¬x.internal = true) (v : Option Alistener)
    {T' : ForwardTable} (hT' : T'.listeners = update T.listeners l v) : Spares T T' := by
  intro k y hy hyint
  rw [hT']
  rcases eq_or_ne k l with rfl | hkl
  · rw [hx, Option.some.injEq] at hy
    exact absurd (hy ▸ hyint) hint
  · rw [update_of_ne hkl]
    exact hy

/-- The branch of `install_listener` for a name that has a listener. -/
lemma rebind (h : Sound T ls ds) (hx : T.listeners l = some x) (ht : t ∈ T.live)
    (connectTo : List UInt8) (noRebind : Bool) (env : Answers) :
    Outcome (T.rebindListener l connectTo (some t) noRebind env)
      (fun r => Settles T (r.1 = .ok) r.2) (· = .noMemory) := by
  rw [rebindListener, deref, hx]
  change Outcome (if x.internal = true then _ else _) _ _
  split_ifs with hint hno hmem hmove
  · exact Outcome.ok (Settles.refuse h)
  · exact Outcome.ok (Settles.refuse h)
  · exact Outcome.ok (Settles.refuse h)
  · -- the record moves from one list to the other
    have hheld := holder_listener hx
    obtain ⟨u, hu⟩ : ∃ u, x.transport = some u := by
      rw [← Option.isSome_iff_exists, Option.isSome_iff_ne_none]
      exact fun hnone => hint (h.internal l x hx hnone)
    obtain ⟨Q, hQ, hremoved⟩ := h.linkage.remove (hheld.trans hu)
    obtain ⟨R, ds', hR, hadded⟩ := hremoved.add (update_self ..) (fun _ => nofun) ht
    rw [update_idem] at hadded
    let y : Alistener := { x with connectTo := connectTo, transport := some t }
    have hsound := h.rewrite (y := y) hx rfl nofun hadded
    let T₁ := { T.setListener l { x with connectTo := connectTo } with disconnects := Q }
    have hremove : (T.setListener l { x with connectTo := connectTo }).removeTransportDisconnect
        (.listener l) = .ok T₁ := removeTransportDisconnect_eq hQ
    have hadd : (T₁.setListener l y).addTransportDisconnect t (.listener l) =
        .ok { T₁.setListener l y with disconnects := R } := addTransportDisconnect_eq ht hR
    have hlisteners : (T₁.setListener l y).listeners = update T.listeners l (some y) :=
      update_idem ..
    have hT' : ({ T₁.setListener l y with disconnects := R } : ForwardTable) =
        { T with listeners := update T.listeners l (some y), disconnects := R } :=
      congrArg (fun f => { T with listeners := f, disconnects := R }) hlisteners
    refine Outcome.of_eq (bind_eq_ok_iff.mpr ⟨T₁, hremove, bind_eq_ok_iff.mpr ⟨t, rfl,
      bind_eq_ok_iff.mpr ⟨_, hadd, rfl⟩⟩⟩) ⟨⟨ls, ds', ?_⟩, fun hno => absurd rfl hno, ?_⟩
    · exact hT' ▸ hsound
    · exact spares_update hx hint _ hlisteners
  · -- the record stays where it is
    have hstay : update (holderOf T.listeners T.remotes) (.listener l) x.transport =
        holderOf T.listeners T.remotes := by
      rw [← holder_listener hx, update_eq_self]
    have hsound := h.rewrite (y := { x with connectTo := connectTo }) (R := T.disconnects) hx rfl
      (fun hnone => absurd (h.internal l x hx hnone) hint) (hstay.symm ▸ h.linkage)
    exact Outcome.ok ⟨⟨ls, ds, hsound⟩, fun hno => absurd rfl hno, spares_update hx hint _ rfl⟩

/-- The branch of `install_listener` for a new name. -/
lemma newListener (h : Sound T ls ds) {localName connectTo : List UInt8} {transport : Option TAddr}
    (hname : ∀ l x, T.listeners l = some x → x.localName ≠ localName)
    (ht : ∀ t, transport = some t → t ∈ T.live)
    (hint : transport = none → connectTo.head? = some 0x2a) (env : Answers) :
    Outcome (T.newListener localName connectTo transport env)
      (fun r => Settles T (r.1 = .ok) r.2) (· = .noMemory) := by
  rw [ForwardTable.newListener]
  split_ifs with hmem
  · exact Outcome.error rfl
  cases hbind : env.bind with
  | none => exact Outcome.ok (Settles.refuse h)
  | some fd =>
    let x : Alistener := ⟨fd, localName, connectTo, transport⟩
    have hfree := h.freshListener T.nextAddr le_rfl
    obtain ⟨R, hR, hlisting⟩ := h.listing.install (x := x) hfree hname
    let T₁ := { T.setListener T.nextAddr x with nextAddr := T.nextAddr + 1, listenerList := R }
    have hlinkage : ∃ Q ds', (transport.elim (pure T₁) fun t =>
          T₁.addTransportDisconnect t (.listener T.nextAddr)) =
          (.ok { T₁ with disconnects := Q } : Except Halt ForwardTable) ∧
        Linkage Q T.live (update (holderOf T.listeners T.remotes) (.listener T.nextAddr) transport)
          ds' := by
      have hnone : holderOf T.listeners T.remotes (.listener T.nextAddr) = none := by
        rw [holderOf, hfree]
        rfl
      cases transport with
      | none =>
        refine ⟨_, ds, rfl, ?_⟩
        rw [← hnone, update_eq_self]
        exact h.linkage
      | some t =>
        obtain ⟨Q, ds', hQ, hadded⟩ := h.linkage.add hnone (by simp) (ht t rfl)
        exact ⟨Q, ds', addTransportDisconnect_eq (T := T₁) (ht t rfl) hQ, hadded⟩
    obtain ⟨Q, ds', hrun, hlinked⟩ := hlinkage
    refine Outcome.of_eq (bind_eq_ok_iff.mpr ⟨R, ?_,
      bind_eq_ok_iff.mpr ⟨{ T₁ with disconnects := Q }, ?_, rfl⟩⟩) ⟨⟨_, ds', hlisting, ?_,
      fun k y hy => ?_, fun k hk => ?_, h.freshRemote, h.freshTransport, h.registered, h.once⟩,
      fun hno => absurd rfl hno, fun k y hy _ => ?_⟩
    · change nonNull (T.listenerList.linkBefore none T.nextAddr) = _
      rw [hR]
      rfl
    · cases transport <;> exact hrun
    · change Linkage Q T.live (holderOf (update T.listeners T.nextAddr (some x)) T.remotes) ds'
      rw [holderOf_listener]
      exact hlinked
    · change update T.listeners T.nextAddr (some x) k = some y at hy
      rcases eq_or_ne k T.nextAddr with rfl | hk
      · rw [update_self, Option.some.injEq] at hy
        rw [← hy]
        exact fun hnone => decide_eq_true (hint hnone)
      · rw [update_of_ne hk] at hy
        exact h.internal k y hy
    · exact (update_of_ne (Nat.ne_of_gt hk) ..).trans (h.freshListener k (Nat.le_of_succ_le hk))
    · refine (update_of_ne ?_ ..).trans hy
      rintro rfl
      rw [hfree] at hy
      cases hy

/-- `install_listener` for a transport. -/
lemma install (h : Sound T ls ds) (ht : t ∈ T.live) (localName connectTo : List UInt8)
    (noRebind : Bool) (env : Answers) :
    Outcome (T.installListener localName connectTo (some t) noRebind env)
      (fun r => Settles T (r.1 = .ok) r.2) (· = .noMemory) := by
  obtain ⟨hfirst, hlookup⟩ := h.lookup localName
  rw [installListener, hfirst]
  rcases hlookup with ⟨l, x, hfind, hx, -⟩ | ⟨hfind, hother⟩
  · change Outcome (T.findListener localName (T.nextAddr + 1) (Ring.firstOf ls none) >>= _) _ _
    rw [hfind]
    exact h.rebind hx ht connectTo noRebind env
  · change Outcome (T.findListener localName (T.nextAddr + 1) (Ring.firstOf ls none) >>= _) _ _
    rw [hfind]
    change Outcome (T.newListener localName connectTo (some t) env) _ _
    refine h.newListener hother (fun u hu => ?_) (fun hnone => ?_) env
    · cases hu
      exact ht
    · cases hnone

/-- `remove_listener`, which spares everything but what it is told to remove. -/
lemma remove (h : Sound T ls ds) (localName : List UInt8) :
    ∃ found T', T.removeListener localName = .ok (found, T') ∧ (∃ ls' ds', Sound T' ls' ds') ∧
      (found = false → T' = T) ∧ (Spares T T' ↔
        ¬∃ l x, T.listeners l = some x ∧ x.internal = true ∧ x.localName = localName) := by
  obtain ⟨hfirst, hlookup⟩ := h.lookup localName
  rw [removeListener, hfirst]
  rcases hlookup with ⟨l, x, hfind, hx, hname⟩ | ⟨hfind, hother⟩
  · obtain ⟨R, Q, hfree, hsound⟩ := h.freeListener hx
    refine ⟨true, _, bind_eq_ok_iff.mpr ⟨_, rfl, bind_eq_ok_iff.mpr ⟨_, hfind,
      bind_eq_ok_iff.mpr ⟨_, hfree, rfl⟩⟩⟩, ⟨_, _, hsound⟩, nofun, ?_⟩
    constructor
    · rintro hspares ⟨k, y, hy, hyint, hyname⟩
      obtain rfl := h.listing.names k l y x hy hx (hyname.trans hname.symm)
      have hgone : update T.listeners k none k = some y := hspares k y hy hyint
      rw [update_self] at hgone
      cases hgone
    · intro hno
      exact spares_update hx (fun hint => hno ⟨l, x, hx, hint, hname⟩) none rfl
  · refine ⟨false, T, bind_eq_ok_iff.mpr ⟨_, rfl, bind_eq_ok_iff.mpr ⟨_, hfind, rfl⟩⟩,
      ⟨ls, ds, h⟩, fun _ => rfl, iff_of_true (fun _ _ hx _ => hx) ?_⟩
    rintro ⟨l, x, hx, -, hname⟩
    exact hother l x hx hname

/-! ## Transports that go away -/

/-- There are at most as many records as have been allocated. -/
lemma records_le (h : Sound T ls ds) (ht : t ∈ T.live) :
    (ds t).length ≤ T.nextAddr + T.nextRemote := by
  have hsub : ds t ⊆ (List.range T.nextAddr).map .listener ++
      (List.range T.nextRemote).map .remote := by
    intro d hd
    rw [h.linkage.linked t ht] at hd
    rw [List.mem_append, List.mem_map, List.mem_map]
    cases d with
    | head u => cases hd
    | listener l =>
      refine .inl ⟨l, List.mem_range.mpr (not_le.mp fun hl => ?_), rfl⟩
      rw [holderOf, h.freshListener l hl] at hd
      cases hd
    | remote a =>
      refine .inr ⟨a, List.mem_range.mpr (not_le.mp fun ha => ?_), rfl⟩
      rw [holderOf, h.freshRemote a ha] at hd
      cases hd
  have hlen := (List.subperm_of_subset (h.linkage.rings.nodup t ht) hsub).length_le
  rwa [List.length_append, List.length_map, List.length_map, List.length_range,
    List.length_range] at hlen

/-- A disconnect function takes its own record out of the list, and touches no other. -/
lemma callDisconnect {d : Adisconnect} {rest : List Adisconnect} (h : Sound T ls ds)
    (ht : t ∈ T.live) (hds : ds t = d :: rest) :
    ∃ T' ls' ds', T.callDisconnect d = .ok T' ∧ Sound T' ls' ds' ∧ ds' t = rest ∧
      T'.transports = T.transports ∧ T'.nextTAddr = T.nextTAddr ∧
      T'.transportList = T.transportList := by
  have hd : holderOf T.listeners T.remotes d = some t :=
    (h.linkage.linked t ht d).mp (hds ▸ List.mem_cons_self ..)
  have herase : (ds t).erase d = rest := by
    rw [hds, List.erase_cons_head]
  cases d with
  | head u => cases hd
  | listener l =>
    obtain ⟨x, hx, -⟩ := Option.bind_eq_some_iff.mp hd
    obtain ⟨R, Q, hfree, hsound⟩ := h.freeListener hx
    exact ⟨_, _, _, hfree, hsound, herase, rfl, rfl, rfl⟩
  | remote a =>
    obtain ⟨Q, hfree, hsound⟩ := h.freeRemote hd
    refine ⟨_, _, _, ?_, hsound, herase, rfl, rfl, rfl⟩
    rw [ForwardTable.callDisconnect, remoteSocketDisconnect, show T.remotes a = some t from hd]
    exact bind_eq_ok_iff.mpr ⟨_, hfree, rfl⟩

/-- The loop of `run_transport_disconnects` empties the list. -/
lemma runFrom {rest : List Adisconnect} (h : Sound T ls ds) (ht : t ∈ T.live) (hds : ds t = rest)
    {n : ℕ} (hn : rest.length < n) :
    ∃ T' ls' ds', runDisconnectsFrom t n (Ring.firstOf rest (headOf t)) T = .ok T' ∧
      Sound T' ls' ds' ∧ ds' t = [] ∧ T'.transports = T.transports ∧
      T'.nextTAddr = T.nextTAddr ∧ T'.transportList = T.transportList := by
  induction rest generalizing T ls ds n with
  | nil =>
    cases n with
    | zero => exact absurd hn (Nat.not_lt_zero _)
    | succ n =>
      refine ⟨T, ls, ds, ?_, h, hds, rfl, rfl, rfl⟩
      change runDisconnectsFrom t (n + 1) (headOf t) T = _
      rw [runDisconnectsFrom, headOf, if_pos rfl]
  | cons d rest ih =>
    cases n with
    | zero => exact absurd hn (Nat.not_lt_zero _)
    | succ n =>
      have hne : (some d : Option Adisconnect) ≠ some (.head t) :=
        (h.linkage.rings.heads t ht d (hds ▸ List.mem_cons_self ..) t).symm
      have hsplit : ds t = [] ++ d :: rest := hds
      have hnext : T.disconnects.next (some d) = some (Ring.firstOf rest (headOf t)) :=
        h.linkage.rings.next_of_mem ht hsplit
      obtain ⟨T₁, ls₁, ds₁, hcall, h₁, hds₁, hsame⟩ := h.callDisconnect ht hds
      have ht₁ : t ∈ T₁.live := by
        rw [live, hsame.1]
        exact ht
      obtain ⟨T', ls', ds', hrun, hsound, hempty, hsame'⟩ :=
        ih h₁ ht₁ hds₁ (Nat.lt_of_succ_lt_succ hn)
      refine ⟨T', ls', ds', ?_, hsound, hempty, hsame'.1.trans hsame.1,
        hsame'.2.1.trans hsame.2.1, hsame'.2.2.trans hsame.2.2⟩
      change runDisconnectsFrom t (n + 1) (some d) T = _
      rw [runDisconnectsFrom, if_neg hne]
      refine bind_eq_ok_iff.mpr ⟨d, rfl, bind_eq_ok_iff.mpr ⟨_, ?_, bind_eq_ok_iff.mpr
        ⟨T₁, hcall, hrun⟩⟩⟩
      rw [hnext]
      rfl

/-- `run_transport_disconnects`. -/
lemma runDisconnects (h : Sound T ls ds) (ht : t ∈ T.live) :
    ∃ T' ls' ds', T.runTransportDisconnects t = .ok T' ∧
      Sound T' ls' ds' ∧ ds' t = [] ∧ T'.transports = T.transports ∧
      T'.nextTAddr = T.nextTAddr ∧ T'.transportList = T.transportList := by
  obtain ⟨x, hx⟩ := Option.isSome_iff_exists.mp ht
  obtain ⟨T', ls', ds', hrun, hT'⟩ := h.runFrom ht rfl (Nat.lt_succ_of_le (h.records_le ht))
  refine ⟨T', ls', ds', ?_, hT'⟩
  rw [runTransportDisconnects, derefT, hx]
  refine bind_eq_ok_iff.mpr ⟨x, rfl, bind_eq_ok_iff.mpr ⟨_, ?_, hrun⟩⟩
  change nonNull (T.disconnects.next (headOf t)) = _
  rw [h.linkage.rings.next_head ht]
  rfl

/-! ## Requests -/

/-- What `acquire_one_transport` returns is alive. -/
lemma acquire_live {ttype : Requested} {serial : Option (List UInt8)} (h : Sound T ls ds)
    (ht : T.acquire ttype serial = .inl t) : t ∈ T.live := by
  refine h.registered t ?_
  obtain ⟨err, hcall, -⟩ := acquireOneTransport_any ttype serial
    (fun t => (T.transports t).getD { type := .usb }) T.transportList
  rw [acquire, hcall] at ht
  cases hfound : (alone (wanted ttype serial (fun t => (T.transports t).getD { type := .usb })
      T.transportList)).filter fun u =>
        ((T.transports u).getD { type := .usb }).connectionState ≠ .offline with
  | none =>
    rw [hfound] at ht
    cases ht
  | some u =>
    rw [hfound, Sum.inl.injEq] at ht
    have hu := (Option.filter_eq_some_iff.mp hfound).1
    rw [← scan_none ttype serial _ T.transportList "device not found"] at hu
    exact scan_mem _ _ _ _ _ _ (ht ▸ hu)

end Sound

variable {T : ForwardTable} {service : List UInt8} {ttype : Requested}
  {serial : Option (List UInt8)}

/-- The condition of the failure: `killforward:` with the name of an internal listener, and a
transport to send it to. -/
def KillsInternal (service : List UInt8) (ttype : Requested) (serial : Option (List UInt8))
    (T : ForwardTable) : Prop :=
  ∃ l x t, T.listeners l = some x ∧ x.internal = true ∧ x.localName ≠ [] ∧
    service = str "killforward:" ++ x.localName ∧ T.acquire ttype serial = .inl t

/-- `killforward:` and a local name. -/
lemma parseSpec_killforward (name : List UInt8) : parseSpec (str "killforward:" ++ name) =
    if name = [] then none else some (.remove name) := rfl

/-- Nothing else removes a listener by its name. -/
lemma parseSpec_remove {name : List UInt8}
    (hservice : (startsWith service "forward:" || startsWith service "killforward:") = true)
    (h : parseSpec service = some (.remove name)) :
    service = str "killforward:" ++ name ∧ name ≠ [] := by
  rcases Bool.or_eq_true_iff.mp hservice with hforward | hkill
  · obtain ⟨rest, rfl⟩ := startsWith_iff.mp hforward
    unfold parseSpec at h
    rw [show startsWith (str "forward:" ++ rest) "kill" = false from rfl] at h
    simp only [Bool.not_false, if_true] at h
    split_ifs at h <;> cases h
  · obtain ⟨rest, rfl⟩ := startsWith_iff.mp hkill
    rw [parseSpec_killforward] at h
    split_ifs at h with hrest
    cases h
    exact ⟨rfl, hrest⟩

/-- What a request may end the program with. -/
def RequestEnds (e : Halt) : Prop := e = .exit ∨ e = .noMemory ∨ e = .noSerial

/-- What a request leaves behind, with its answer. -/
structure Handled (T : ForwardTable) (kills : Prop) (reply : Option (List UInt8))
    (T' : ForwardTable) : Prop where
  sound : ∃ ls ds, Sound T' ls ds
  refused : ∀ text, reply = some text → str "FAIL" <+: text → T' = T
  spares : Spares T T' ↔ ¬kills

lemma Handled.same {kills : Prop} {ls : List LAddr} {ds : TAddr → List Adisconnect}
    (h : Sound T ls ds) (hkills : ¬kills) (reply : Option (List UInt8)) :
    Handled T kills reply T :=
  ⟨⟨ls, ds, h⟩, fun _ _ _ => rfl, iff_of_true (fun _ _ hx _ => hx) hkills⟩

/-- What is answered with `OKAY` is not answered with `FAIL`. -/
lemma Handled.okay {kills : Prop} {ls : List LAddr} {ds : TAddr → List Adisconnect}
    {T' : ForwardTable} (h : Sound T' ls ds) (hspares : Spares T T' ↔ ¬kills) :
    Handled T kills (some (str "OKAYOKAY")) T' := by
  refine ⟨⟨ls, ds, h⟩, ?_, hspares⟩
  rintro text ⟨⟩ hfail
  exact absurd hfail (by decide)

namespace Sound

variable {ls : List LAddr} {ds : TAddr → List Adisconnect}

/-- `format_listeners` can only fail at a transport without a serial. -/
lemma format {kept rest : List LAddr} (h : Sound T (kept ++ rest) ds) {n : ℕ}
    (hn : rest.length < n) :
    Outcome (T.formatListeners n (Ring.firstOf rest none)) (fun _ => True) (· = .noSerial) := by
  induction rest generalizing kept n with
  | nil =>
    cases n with
    | zero => exact absurd hn (Nat.not_lt_zero _)
    | succ n => exact Outcome.ok trivial
  | cons l rest ih =>
    cases n with
    | zero => exact absurd hn (Nat.not_lt_zero _)
    | succ n =>
      obtain ⟨x, hx⟩ := (h.listing.live l).mp (List.mem_append_right _ (List.mem_cons_self ..))
      have h' : Sound T ((kept ++ [l]) ++ rest) ds := by
        rwa [List.append_assoc, List.singleton_append]
      have hrest := ih h' (Nat.lt_of_succ_lt_succ hn)
      have hstep : T.formatListeners (n + 1) (Ring.firstOf (l :: rest) none) =
          if x.internal then T.formatListeners n (Ring.firstOf rest none)
          else T.formatListener x >>= fun line =>
            T.formatListeners n (Ring.firstOf rest none) >>= fun lines => pure (line ++ lines) := by
        change T.formatListeners (n + 1) (some l) = _
        rw [formatListeners, deref, hx, h.listing.next]
        rfl
      rw [hstep]
      split_ifs with hint
      · exact hrest
      · obtain ⟨t, ht⟩ : ∃ t, x.transport = some t := by
          rw [← Option.isSome_iff_exists, Option.isSome_iff_ne_none]
          exact fun hnone => hint (h.internal l x hx hnone)
        have hlive : t ∈ T.live := h.linkage.holders _ _ ((holder_listener hx).trans ht)
        obtain ⟨y, hy⟩ := Option.isSome_iff_exists.mp hlive
        have hline : Outcome (T.formatListener x) (fun _ => True) (· = .noSerial) := by
          have hderef : T.derefT t = .ok y := by
            rw [derefT, hy]
          rw [formatListener, ht]
          change Outcome (T.derefT t >>= _) _ _
          rw [hderef]
          refine Outcome.bind (Q := fun _ => True) (Outcome.ok trivial) fun z _ _ => ?_
          cases z.serial with
          | none => exact Outcome.error rfl
          | some serial => exact Outcome.ok trivial
        exact hline.bind fun _ _ _ => hrest.bind fun _ _ _ => Outcome.ok trivial

/-- A well-formed request on a transport that is alive. -/
lemma runSpec {t : TAddr} {kills : Prop} (h : Sound T ls ds) (ht : t ∈ T.live) (spec : Spec)
    (env : Answers) (hkills : kills ↔ ∃ name l x, spec = .remove name ∧ T.listeners l = some x ∧
      x.internal = true ∧ x.localName = name) :
    Outcome (T.runSpec spec t env) (fun r => Handled T kills (some r.1) r.2) (· = .noMemory) := by
  cases spec with
  | create noRebind localName remote =>
    have hno : ¬kills := by
      rw [hkills]
      rintro ⟨name, l, x, ⟨⟩, -⟩
    refine (h.install ht localName remote noRebind env).bind fun r _ hr => ?_
    obtain ⟨status, T'⟩ := r
    obtain ⟨⟨ls', ds', hsound⟩, hrefused, hspares⟩ := hr
    cases status with
    | ok => exact Outcome.ok (Handled.okay hsound (iff_of_true hspares hno))
    | cannotBind =>
      obtain rfl := hrefused nofun
      exact Outcome.ok (Handled.same h hno _)
    | cannotRebind =>
      obtain rfl := hrefused nofun
      exact Outcome.ok (Handled.same h hno _)
    | internalError =>
      obtain rfl := hrefused nofun
      exact Outcome.ok (Handled.same h hno _)
  | remove localName =>
    obtain ⟨found, T', hrun, ⟨ls', ds', hsound⟩, hrefused, hspares⟩ := h.remove localName
    have hspares' : Spares T T' ↔ ¬kills := by
      rw [hspares, hkills]
      refine not_congr ⟨?_, ?_⟩
      · rintro ⟨l, x, hx, hint, hname⟩
        exact ⟨localName, l, x, rfl, hx, hint, hname⟩
      · rintro ⟨name, l, x, ⟨⟩, hx, hint, hname⟩
        exact ⟨l, x, hx, hint, hname⟩
    rw [ForwardTable.runSpec, hrun]
    cases found with
    | true => exact Outcome.ok (Handled.okay hsound hspares')
    | false =>
      refine Outcome.ok ⟨⟨ls', ds', hsound⟩, fun _ _ _ => hrefused rfl, hspares'⟩

/-- `handle_host_request`. -/
theorem request (h : Sound T ls ds) (service : List UInt8) (ttype : Requested)
    (serial : Option (List UInt8)) (env : Answers) :
    Outcome (T.handleHostRequest service ttype serial env)
      (fun r => Handled T (KillsInternal service ttype serial T) r.1 r.2) RequestEnds := by
  -- the other requests do not begin like `killforward:`
  have hother : ∀ {text : String}, (∀ rest, str text ≠ str "killforward:" ++ rest) →
      service = str text → ¬KillsInternal service ttype serial T := by
    rintro text htext hservice ⟨l, x, t, -, -, -, hkill, -⟩
    exact htext _ (hservice.symm.trans hkill)
  rw [handleHostRequest]
  split_ifs with hk hlist hall hspec hstate
  · exact Outcome.error (.inl rfl)
  · have hno := hother (by rintro rest ⟨⟩) hlist
    have hformat := @format T ds [] ls h _ (Nat.lt_succ_of_le h.length_le)
    rw [h.listing.first]
    change Outcome (T.formatListeners (T.nextAddr + 1) (Ring.firstOf ls none) >>= _) _ _
    exact (hformat.imp (fun _ _ => trivial) fun e he => Or.inr (Or.inr he)).bind
      fun _ _ _ => Outcome.ok (Handled.same h hno _)
  · have hno := hother (by rintro rest ⟨⟩) hall
    obtain ⟨T', ls', ds', hrun, hsound, hspares⟩ :=
      @removeFrom T ds [] ls h _ (Nat.lt_succ_of_le h.length_le)
    rw [removeAllListeners, h.listing.first]
    refine Outcome.of_eq (bind_eq_ok_iff.mpr ⟨T', bind_eq_ok_iff.mpr ⟨_, rfl, hrun⟩, rfl⟩) ?_
    exact Handled.okay hsound (iff_of_true hspares hno)
  · cases hparse : parseSpec service with
    | none =>
      refine Outcome.ok (Handled.same h ?_ _)
      rintro ⟨l, x, t, -, -, hname, rfl, -⟩
      rw [parseSpec_killforward, if_neg hname] at hparse
      cases hparse
    | some spec =>
      cases hacquire : T.acquire ttype serial with
      | inr err =>
        refine Outcome.ok (Handled.same h ?_ _)
        rintro ⟨l, x, t, -, -, -, -, ht⟩
        rw [hacquire] at ht
        cases ht
      | inl t =>
        have hkills : KillsInternal service ttype serial T ↔ ∃ name l x, spec = .remove name ∧
            T.listeners l = some x ∧ x.internal = true ∧ x.localName = name := by
          constructor
          · rintro ⟨l, x, u, hx, hint, hname, rfl, -⟩
            rw [parseSpec_killforward, if_neg hname, Option.some.injEq] at hparse
            exact ⟨x.localName, l, x, hparse.symm, hx, hint, rfl⟩
          · rintro ⟨name, l, x, rfl, hx, hint, rfl⟩
            obtain ⟨hservice, hname⟩ := parseSpec_remove hspec hparse
            exact ⟨l, x, t, hx, hint, hname, hservice, hacquire⟩
        have hrun := h.runSpec (h.acquire_live hacquire) spec env hkills
        exact (hrun.imp (fun _ hr => hr) fun e he => Or.inr (Or.inl he)).bind
          fun r _ hr => Outcome.ok hr
  all_goals
    refine Outcome.ok (Handled.same h ?_ _)
    rintro ⟨l, x, t, -, -, -, rfl, -⟩
    exact hspec (Bool.or_eq_true_iff.mpr (.inr (startsWith_iff.mpr ⟨_, rfl⟩)))

end Sound

/-! ## Runs -/

/-- What the program may stop with. -/
def Ends (e : Halt) : Prop := e = .disabled ∨ RequestEnds e

/-- Every event keeps the invariant. -/
lemma step_sound {ls : List LAddr} {ds : TAddr → List Adisconnect} (h : Sound T ls ds)
    (e : Event) : Outcome (step e T) (fun T' => ∃ ls' ds', Sound T' ls' ds') Ends := by
  cases e with
  | request service ttype serial env =>
    exact ((h.request service ttype serial env).imp (fun _ hr => hr) fun _ he => Or.inr he).bind
      fun r _ hr => Outcome.ok hr.sound
  | registered x =>
    have hnew : T.transports T.nextTAddr = none := h.freshTransport _ le_rfl
    have hdead : T.nextTAddr ∉ T.live := by
      intro hmem
      have hsome : (T.transports T.nextTAddr).isSome := hmem
      rw [hnew] at hsome
      cases hsome
    have hlive : ∀ u, (update T.transports T.nextTAddr (some x) u).isSome ↔
        u = T.nextTAddr ∨ u ∈ T.live := by
      intro u
      rcases eq_or_ne u T.nextTAddr with rfl | hu
      · simp
      · simp [hu, live]
    refine Outcome.ok ⟨ls, update ds T.nextTAddr [], h.listing, ?_, h.internal, h.freshListener,
      h.freshRemote, fun u hu => ?_, fun u hu => ?_, ?_⟩
    · have hlinkage := h.linkage.register hdead fun _ => rfl
      rwa [show insert T.nextTAddr T.live = _ from Set.ext fun u => (hlive u).symm] at hlinkage
    · exact (update_of_ne (Nat.ne_of_gt hu) ..).trans (h.freshTransport u (Nat.le_of_succ_le hu))
    · rcases List.mem_append.mp hu with hu | hu
      · exact (hlive u).mpr (.inr (h.registered u hu))
      · exact (hlive u).mpr (.inl (List.mem_singleton.mp hu))
    · refine List.nodup_append.mpr ⟨h.once, by simp, ?_⟩
      rintro u hu v hv rfl
      exact hdead (List.mem_singleton.mp hv ▸ h.registered u hu)
  | changed t x =>
    rw [step]
    split_ifs with ht
    · have hlive : T.live = {u | (update T.transports t (some x) u).isSome} := by
        ext u
        rcases eq_or_ne u t with rfl | hu
        · simpa [live] using ht
        · simp [hu, live]
      refine Outcome.ok ⟨ls, ds, h.listing, ?_, h.internal, h.freshListener, h.freshRemote,
        fun u hu => ?_, fun u hu => ?_, h.once⟩
      · have hlinkage := h.linkage
        rwa [hlive] at hlinkage
      · refine (update_of_ne ?_ ..).trans (h.freshTransport u hu)
        rintro rfl
        rw [h.freshTransport _ hu] at ht
        cases ht
      · have hmem := h.registered u hu
        rwa [hlive] at hmem
    · exact Outcome.error (.inl rfl)
  | offline t =>
    rw [step]
    split_ifs with ht
    · obtain ⟨T', ls', ds', hrun, hsound, -⟩ := h.runDisconnects ht
      exact Outcome.of_eq hrun ⟨ls', ds', hsound⟩
    · exact Outcome.error (.inl rfl)
  | removed t =>
    rw [step]
    split_ifs with ht
    · have hunlisted : Sound { T with transportList := T.transportList.erase t } ls ds :=
        ⟨h.listing, h.linkage, h.internal, h.freshListener, h.freshRemote, h.freshTransport,
          fun u hu => h.registered u (List.mem_of_mem_erase hu), h.once.erase t⟩
      obtain ⟨T', ls', ds', hrun, hsound, hempty, htr, hnext, hlist⟩ :=
        hunlisted.runDisconnects ht
      have hlive : T'.live \ {t} = {u | (update T'.transports t none u).isSome} := by
        ext u
        rcases eq_or_ne u t with rfl | hu
        · simp
        · simp [hu, live]
      have ht' : t ∈ T'.live := by
        rw [live, htr]
        exact ht
      refine Outcome.of_eq (bind_eq_ok_iff.mpr ⟨T', hrun, rfl⟩) ⟨ls', ds', hsound.listing, ?_,
        hsound.internal, hsound.freshListener, hsound.freshRemote, fun u hu => ?_, fun u hu => ?_,
        hsound.once⟩
      · have hlinkage := hsound.linkage.retire ht' hempty
        rwa [hlive] at hlinkage
      · rcases eq_or_ne u t with rfl | hut
        · exact update_self ..
        · exact (update_of_ne hut ..).trans (hsound.freshTransport u hu)
      · have hut : u ≠ t := by
          rintro rfl
          rw [show T'.transportList = T.transportList.erase u from hlist] at hu
          exact h.once.not_mem_erase hu
        have hmem : u ∈ T'.live \ {t} := ⟨hsound.registered u hu, hut⟩
        rwa [hlive] at hmem
    · exact Outcome.error (.inl rfl)
  | streamOpened t =>
    rw [step]
    split_ifs with ht
    · have hnone : holderOf T.listeners T.remotes (.remote T.nextRemote) = none :=
        h.freshRemote _ le_rfl
      obtain ⟨R, ds', hR, hadded⟩ := h.linkage.add hnone (fun _ => nofun) ht
      refine Outcome.of_eq (addTransportDisconnect_eq ht hR) ⟨ls, ds', h.listing, ?_, h.internal,
        h.freshListener, fun a ha => ?_, h.freshTransport, h.registered, h.once⟩
      · change Linkage R T.live (holderOf T.listeners (update T.remotes T.nextRemote (some t))) ds'
        rw [holderOf_remote]
        exact hadded
      · exact (update_of_ne (Nat.ne_of_gt ha) ..).trans (h.freshRemote a (Nat.le_of_succ_le ha))
    · exact Outcome.error (.inl rfl)
  | streamClosed a =>
    rw [step]
    cases ha : T.remotes a with
    | none => exact Outcome.error (.inl rfl)
    | some t =>
      obtain ⟨Q, hfree, hsound⟩ := h.freeRemote ha
      exact Outcome.of_eq (bind_eq_ok_iff.mpr ⟨_, hfree, rfl⟩) ⟨_, _, hsound⟩

/-- The table before `adb_main` installs the first listener. -/
lemma sound_empty : Sound {} [] fun _ => [] where
  listing := by
    have hring : Ring.Segment (Ring.Links.null.init none) none ([] : List LAddr) none :=
      ⟨Ring.init_next.trans (if_pos rfl), Ring.init_prev.trans (if_pos rfl)⟩
    exact ⟨⟨fun _ _ => hring, fun _ _ => List.nodup_nil, nofun, nofun⟩,
      fun l => iff_of_false List.not_mem_nil nofun, nofun⟩
  linkage := ⟨⟨nofun, nofun, nofun, nofun⟩, nofun, by rintro (_ | _ | _) t ⟨⟩⟩
  internal := nofun
  freshListener := fun _ _ => rfl
  freshRemote := fun _ _ => rfl
  freshTransport := fun _ _ => rfl
  registered := nofun
  once := List.nodup_nil

lemma adbMain_sound {serverPort : Int} {env : Answers} (h : adbMain serverPort env = .ok T) :
    ∃ ls ds, Sound T ls ds := by
  rw [adbMain] at h
  obtain ⟨⟨status, T'⟩, hinstall, hT⟩ := bind_eq_ok_iff.mp h
  have hsettles : Settles {} (status = .ok) T' := by
    obtain ⟨hfirst, hlookup⟩ := sound_empty.lookup (str ("tcp:" ++ toString serverPort))
    rw [installListener, hfirst] at hinstall
    obtain ⟨p, hp, hinstall⟩ := bind_eq_ok_iff.mp hinstall
    cases hp
    rcases hlookup with ⟨l, x, -, hx, -⟩ | ⟨hfind, hother⟩
    · cases hx
    · obtain ⟨found, hfound, hinstall⟩ := bind_eq_ok_iff.mp hinstall
      cases hfind.symm.trans hfound
      have hnew := @Sound.newListener _ _ _ sound_empty _ (str "*smartsocket*") none hother nofun
        (fun _ => rfl) env
      exact hnew.success hinstall
  dsimp only at hT
  split_ifs at hT with hok
  cases hT
  exact hsettles.sound

lemma run_sound {es : List Event} {T' : ForwardTable} (h : ∃ ls ds, Sound T ls ds)
    (hrun : run step es T = .ok T') : ∃ ls ds, Sound T' ls ds := by
  have hstep : ∀ (e : Event) (T T' : ForwardTable), (∃ ls ds, Sound T ls ds) → True →
      step e T = .ok T' → ∃ ls ds, Sound T' ls ds := by
    rintro e T T' ⟨ls, ds, h⟩ - hstep
    exact (step_sound h e).success hstep
  exact run_invariant hstep h along_true hrun

/-- `listener_list` runs through `ls` and the disconnect list of a transport `t` through `ds t`;
the names of the listeners differ, and each listener with a transport is linked once, for it. -/
structure WellLinked (T : ForwardTable) (ls : List LAddr) (ds : TAddr → List Adisconnect) :
    Prop where
  listed : Ring.Segment T.listenerList none ls none
  records : ∀ t ∈ T.live, Ring.Segment T.disconnects (headOf t) (ds t) (headOf t)
  alive : ∀ l, l ∈ ls ↔ ∃ x, T.listeners l = some x
  names : (ls.map fun l => (T.listeners l).map (·.localName)).Nodup
  linked : ∀ l x t, T.listeners l = some x → x.transport = some t →
    t ∈ T.live ∧ (ds t).count (.listener l) = 1 ∧ ∀ u ∈ T.live, u ≠ t → .listener l ∉ ds u

lemma Sound.wellLinked {ls : List LAddr} {ds : TAddr → List Adisconnect} (h : Sound T ls ds) :
    WellLinked T ls ds where
  listed := h.listing.ring.ring () trivial
  records := h.linkage.rings.ring
  alive := h.listing.live
  names := by
    refine List.Nodup.map_on ?_ h.listing.nodup
    intro l hl k hk hname
    obtain ⟨x, hx⟩ := (h.listing.live l).mp hl
    obtain ⟨y, hy⟩ := (h.listing.live k).mp hk
    rw [hx, hy] at hname
    exact h.listing.names l k x y hx hy (Option.some.inj hname)
  linked := by
    intro l x t hx ht
    have hheld := (holder_listener hx).trans ht
    have hlive := h.linkage.holders _ _ hheld
    have hmem := (h.linkage.linked t hlive _).mpr hheld
    refine ⟨hlive, List.count_eq_one_of_mem (h.linkage.rings.nodup t hlive) hmem, ?_⟩
    intro u hu hut hmem'
    exact hut (h.linkage.rings.apart u hu t hlive _ hmem' hmem)

/-- In every state of every run the lists are in order; a request that is answered with `FAIL`
changes nothing; and a request leaves the internal listeners alone unless it is a `killforward:`
for one of them. -/
theorem protects_iff {serverPort : Int} {env : Answers} {es : List Event} {T₀ T : ForwardTable}
    (hstart : adbMain serverPort env = .ok T₀) (hrun : run step es T₀ = .ok T) :
    (∃ ls ds, WellLinked T ls ds) ∧
      ∀ service ttype serial env reply T',
        T.handleHostRequest service ttype serial env = .ok (reply, T') →
          (∀ text, reply = some text → str "FAIL" <+: text → T' = T) ∧
          (Spares T T' ↔ ¬KillsInternal service ttype serial T) := by
  obtain ⟨ls, ds, h⟩ := run_sound (adbMain_sound hstart) hrun
  refine ⟨⟨ls, ds, h.wellLinked⟩, ?_⟩
  intro service ttype serial env reply T' hrequest
  have hhandled := (h.request service ttype serial env).success hrequest
  exact ⟨hhandled.refused, hhandled.spares⟩

/-- A device that is connected over USB. -/
def usbDevice : Atransport := { type := .usb, connectionState := .device, serial := some [0x31] }

/-- A forward is installed next to the listener for smart sockets. -/
theorem protects_iff_forward : ∃ T₀ T, adbMain 5037 { bind := some 3 } = .ok T₀ ∧
    run step [.registered usbDevice,
      .request (str "forward:tcp:1;tcp:2") .usb none { bind := some 4 }] T₀ = .ok T ∧
    (∃ ls ds, WellLinked T ls ds) ∧
      ∀ service ttype serial env reply T',
        T.handleHostRequest service ttype serial env = .ok (reply, T') →
          (∀ text, reply = some text → str "FAIL" <+: text → T' = T) ∧
          (Spares T T' ↔ ¬KillsInternal service ttype serial T) := by
  have h : ((adbMain 5037 { bind := some 3 }).toOption.any fun T₀ =>
      (run step [.registered usbDevice,
        .request (str "forward:tcp:1;tcp:2") .usb none { bind := some 4 }] T₀).toOption.any
        fun T => (T.listeners 1).isSome) = true := by
    decide +kernel
  obtain ⟨T₀, hstart, h⟩ := of_any h
  obtain ⟨T, hrun, -⟩ := of_any h
  exact ⟨T₀, T, hstart, hrun, protects_iff hstart hrun⟩

/-- `killforward:tcp:5037` removes the listener that `adb_main` has installed. -/
theorem killforward_removes_smartsocket : ∃ T₀ T reply T',
    adbMain 5037 { bind := some 3 } = .ok T₀ ∧ run step [.registered usbDevice] T₀ = .ok T ∧
    T.handleHostRequest (str "killforward:tcp:5037") .usb none {} = .ok (reply, T') ∧
    (∃ x, T.listeners 0 = some x ∧ x.internal = true) ∧ T'.listeners 0 = none ∧
    ¬Spares T T' := by
  have h : ((adbMain 5037 { bind := some 3 }).toOption.any fun T₀ =>
      (run step [.registered usbDevice] T₀).toOption.any fun T =>
        (T.handleHostRequest (str "killforward:tcp:5037") .usb none {}).toOption.any fun r =>
          (T.listeners 0).any (·.internal) && (r.2.listeners 0).isNone) = true := by
    decide +kernel
  obtain ⟨T₀, hstart, h⟩ := of_any h
  obtain ⟨T, hrun, h⟩ := of_any h
  obtain ⟨⟨reply, T'⟩, hrequest, h⟩ := of_any h
  rw [Bool.and_eq_true, Option.any_eq_true, Option.isNone_iff_eq_none] at h
  obtain ⟨⟨x, hx, hint⟩, hgone⟩ := h
  refine ⟨T₀, T, reply, T', hstart, hrun, hrequest, ⟨x, hx, hint⟩, hgone, fun hspares => ?_⟩
  have hkept := hspares 0 x hx hint
  rw [hgone] at hkept
  cases hkept

end ForwardTable

end Adbd
