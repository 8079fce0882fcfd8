import Adbd.Effects.Kinds
import Adbd.Properties.DrainPeers

/-!
# The registry of trackers

A tracker is in two lists, that of the local sockets and `_jdwp_trackers_list`, and its own close
function takes it off both.  `close_all_sockets` does not call that function: it closes every socket
as one with a descriptor, so that a tracker it finds is freed and stays in the registry.  As
`input_thread` calls it when the main loop has already taken the transport down, there is nothing
left to find, unless the host has connected again in the meantime.
-/

namespace Adbd.TrackerRegistry

open Function Transition Relation Daemon PeerLinks DrainPeers

variable {e : Event} {D D' : Daemon} {m : Moment} {a : Addr} {s : Asocket}

/-- The step does not close a tracker behind the back of the registry. -/
def Unlinks (e : Event) (D : Daemon) : Prop := ∀ a, ¬BypassesTracker e D a

/-- The entries of the registry are trackers that have not been freed. -/
structure Tracked (D : Daemon) : Prop where
  nodup : D.jdwpTrackersList.Nodup
  live : ∀ a ∈ D.jdwpTrackersList, ∃ s, D.sockets a = some s ∧ s.ops = .tracker

/-! ## What keeps the registry -/

section

variable {z : Option Asocket} {s' : Asocket}

lemma Tracked.notMem (h : Tracked D) (hs : D.sockets a = some s) (hops : s.ops ≠ .tracker) :
    a ∉ D.jdwpTrackersList := by
  intro ha
  obtain ⟨q, hq, htracker⟩ := h.live a ha
  cases hs.symm.trans hq
  exact hops htracker

/-- No socket is changed. -/
lemma Tracked.same (h : Tracked D) (hsockets : D'.sockets = D.sockets)
    (hlist : D'.jdwpTrackersList = D.jdwpTrackersList) : Tracked D' := by
  refine ⟨hlist ▸ h.nodup, fun a ha => ?_⟩
  rw [hsockets]
  exact h.live a (hlist ▸ ha)

/-- One socket is changed, or freed. -/
lemma Tracked.change (h : Tracked D) (hsockets : D'.sockets = update D.sockets a z)
    (hlist : D'.jdwpTrackersList = D.jdwpTrackersList)
    (hself : a ∈ D.jdwpTrackersList → ∃ s, z = some s ∧ s.ops = .tracker) : Tracked D' := by
  refine ⟨hlist ▸ h.nodup, fun b hb => ?_⟩
  rw [hlist] at hb
  by_cases hba : b = a
  · subst hba
    rw [hsockets, update_self]
    exact hself hb
  · rw [hsockets, update_of_ne hba]
    exact h.live b hb

/-- A socket keeps its kind. -/
lemma Tracked.rewrite (h : Tracked D) (hs : D.sockets a = some s)
    (hsockets : D'.sockets = update D.sockets a (some s'))
    (hlist : D'.jdwpTrackersList = D.jdwpTrackersList) (hops : s'.ops = s.ops) : Tracked D' := by
  refine h.change hsockets hlist fun ha => ⟨s', rfl, ?_⟩
  obtain ⟨q, hq, htracker⟩ := h.live a ha
  cases hs.symm.trans hq
  exact hops.trans htracker

/-- A socket of another kind is changed, or freed. -/
lemma Tracked.other (h : Tracked D) (hs : D.sockets a = some s) (hkind : s.ops ≠ .tracker)
    (hsockets : D'.sockets = update D.sockets a z)
    (hlist : D'.jdwpTrackersList = D.jdwpTrackersList) : Tracked D' :=
  h.change hsockets hlist fun ha => absurd ha (h.notMem hs hkind)

/-- A new socket is no entry. -/
lemma Tracked.fresh (h : Tracked D) (hfresh : ∀ b t, D.sockets b = some t → b < D.nextAddr) :
    D.nextAddr ∉ D.jdwpTrackersList := by
  intro ha
  obtain ⟨q, hq, -⟩ := h.live _ ha
  exact Nat.lt_irrefl _ (hfresh _ q hq)

/-- A socket and a new one become each other's peers. -/
lemma Tracked.pair (h : Tracked D) (hfresh : ∀ b t, D.sockets b = some t → b < D.nextAddr)
    (hs : D.sockets a = some s)
    (hsockets : D'.sockets = update (update D.sockets D.nextAddr z) a (some s'))
    (hlist : D'.jdwpTrackersList = D.jdwpTrackersList) (hops : s'.ops = s.ops) : Tracked D' := by
  have hne : a ≠ D.nextAddr := Nat.ne_of_lt (hfresh a s hs)
  have hnew : Tracked { D with sockets := update D.sockets D.nextAddr z } :=
    h.change rfl rfl fun ha => absurd ha (h.fresh hfresh)
  refine hnew.rewrite (s := s) ?_ hsockets hlist hops
  exact (update_of_ne hne ..).trans hs

/-- A new tracker enters itself. -/
lemma Tracked.enter (h : Tracked D) (hfresh : ∀ b t, D.sockets b = some t → b < D.nextAddr)
    (hsockets : D'.sockets = update D.sockets D.nextAddr (some s'))
    (hlist : D'.jdwpTrackersList = D.jdwpTrackersList ++ [D.nextAddr])
    (hops : s'.ops = .tracker) : Tracked D' := by
  have hnot := h.fresh hfresh
  refine ⟨?_, fun b hb => ?_⟩
  · rw [hlist, List.nodup_append]
    refine ⟨h.nodup, List.nodup_cons.mpr ⟨List.not_mem_nil, List.nodup_nil⟩,
      fun b hb c hc hbc => hnot ?_⟩
    rw [← List.mem_singleton.mp hc, ← hbc]
    exact hb
  · rw [hlist, List.mem_append, List.mem_singleton] at hb
    rw [hsockets]
    by_cases hba : b = D.nextAddr
    · subst hba
      exact ⟨s', update_self .., hops⟩
    · rw [update_of_ne hba]
      exact h.live b (hb.resolve_right hba)

/-- A tracker that is freed is taken off. -/
lemma Tracked.leave (h : Tracked D) (hsockets : D'.sockets = update D.sockets a none)
    (hlist : D'.jdwpTrackersList = D.jdwpTrackersList.erase a) : Tracked D' := by
  refine ⟨hlist ▸ h.nodup.erase a, fun b hb => ?_⟩
  rw [hlist, h.nodup.mem_erase_iff] at hb
  rw [hsockets, update_of_ne hb.1]
  exact h.live b hb.2

end

/-! ## Every change of a step that bypasses no tracker -/

lemma tracked_kept : Kept Unlinks fun m => Tracked m.d := by
  intro e D m m' hC _ _ _ hwf h he
  have hfresh := hwf.peers.fresh
  cases he
  case unpeer a s hs ha => exact h.rewrite hs rfl rfl rfl
  case unname a s hs hl ha => exact h.rewrite hs rfl rfl rfl
  case free a s hs ha hops hl hc hin hfree htr =>
    exact h.other hs (fun htracker => hC a (htr htracker)) rfl rfl
  case freeTracker a s hs ha hops hl hc hin hclosing => exact h.leave rfl rfl
  case dropRemote r s t x hs hr hops ht hx => exact h.other hs (by rw [hops]; decide) rfl rfl
  case retire a s i ev L hs ha hops hp hclosing hq hin hset hev hread =>
    exact h.rewrite hs rfl rfl rfl
  case createFd =>
    exact h.change rfl rfl fun ha => absurd ha (h.fresh hfresh)
  case createJdwp =>
    exact h.change rfl rfl fun ha => absurd ha (h.fresh hfresh)
  case createTracker => exact h.enter hfresh rfl rfl rfl
  case accept a s hs ha hp hops hclosing hl hin => exact h.pair hfresh hs rfl rfl rfl
  case pair a s id t x hs hp hclosing hl hin hnew hx hserve honline opened hopened =>
    exact h.pair hfresh hs rfl rfl rfl
  case handOver a s t hs ha hops hclosing hl hin =>
    exact h.other hs (by rw [hops]; decide) rfl rfl
  case answered a s hs hops => exact h.other hs (by rw [hops]; decide) rfl rfl
  case exits a s hs => exact h.rewrite hs rfl rfl rfl
  case gather a s ps hs hops hclosing => exact h.rewrite hs rfl rfl rfl
  case enqueueLink a s p out ev L ha hs hops hclosing hout hin hset hev hread hcause hblock =>
    exact h.rewrite hs rfl rfl rfl
  case drained a s ps out ha hs hops hbytes hlen hstuck hleft => exact h.rewrite hs rfl rfl rfl
  case flushed a s ev L ha hs hops hclosing hin hset hev hread hwrite hevents howed hcause hbef =>
    exact h.rewrite hs rfl rfl rfl
  case wrteJdwp a r s q p t x ha hs hops hp hto hpass => exact h.rewrite hs rfl rfl rfl
  case wrteTracker a r s q p t x ha hs hops hp hto hneed => exact h.rewrite hs rfl rfl rfl
  all_goals exact h.same rfl rfl

/-! ## The main result -/

/-- The entry `a` of the registry is a live tracker, and unless it is just being built or closed
its peer is a live remote socket. -/
def LiveEntry (m : Moment) (a : Addr) : Prop :=
  ∃ s, m.d.sockets a = some s ∧ s.ops = .tracker ∧
    (a ∉ m.orphans → ∃ r q, s.peer = some r ∧ m.d.sockets r = some q ∧ q.ops = .remote ∧
      q.peer = some a)

lemma liveEntry_of_tracked (h : Tracked m.d) (hwf : Wf m) (ha : a ∈ m.d.jdwpTrackersList) :
    LiveEntry m a := by
  obtain ⟨s, hs, hops⟩ := h.live a ha
  refine ⟨s, hs, hops, fun haX => ?_⟩
  cases hp : s.peer with
  | none =>
    have hfd := hwf.peers.unpaired a s haX hs hp
    rw [hops] at hfd
    cases hfd
  | some r =>
    obtain ⟨-, q, hq, hback, hpairs⟩ := hwf.peers.paired a s r haX hs hp
    exact ⟨r, q, rfl, hq, pairs_jdwp hpairs (.inr hops), hback⟩

/-- In every run in which no `input_thread` closes a tracker, all the entries of the registry are
live trackers with live peers, those just being built or closed aside: between steps and at every
moment of a step, so that a tracker that takes itself off finds its neighbours. -/
theorem registry_live (h : ReachableBy Unlinks D) :
    (∀ a ∈ D.jdwpTrackersList, LiveEntry { d := D } a) ∧
      ∀ e, Unlinks e D →
        (∀ m, ReflTransGen (Effect e D) { d := D } m → ∀ a ∈ m.d.jdwpTrackersList, LiveEntry m a) ∧
        ∀ a, D.step e ≠ .error (.staleTracker a) := by
  have hwf : Wf { d := D } := h.reachable.wf
  have htracked : Tracked D := by
    refine tracked_kept.reachableBy (fun config fds inUse D hmain => ?_) h
    obtain ⟨L, O, I, rfl⟩ := adbMain_eq hmain
    exact ⟨List.nodup_nil, fun a ha => by cases ha⟩
  have hpath : ∀ e, Unlinks e D → ∀ m, ReflTransGen (Effect e D) { d := D } m →
      ∀ a ∈ m.d.jdwpTrackersList, LiveEntry m a := by
    intro e hC m hm a ha
    exact liveEntry_of_tracked (tracked_kept.path hC hwf htracked hm) (wf_of_path hm hwf) ha
  refine ⟨fun a ha => liveEntry_of_tracked htracked hwf ha, fun e hC => ⟨hpath e hC, ?_⟩⟩
  intro a hstop
  obtain ⟨m, hm, hmem, hfreed⟩ := stops_of_step hwf hstop
  obtain ⟨s, hs, -⟩ := hpath e hC m hm a hmem
  rw [hfreed] at hs
  cases hs

/-! ## Two runs -/

/-- The host's greeting. -/
def hello : Apacket := packetOf aCnxn aVersion 4096 (str "host::" ++ [0])

/-- The host asks for a tracker. -/
def track (rid : UInt32) : Apacket := packetOf aOpen rid 0 (str "track-jdwp" ++ [0])

/-- A host connects and opens a tracker, then another. -/
def twoTrackers : List Event :=
  connect 0 10 11 12 ++ carry 0 11 hello {} ++ carry 0 11 (track 5) {} ++ connect 1 13 14 15 ++
    carry 1 14 hello {} ++ carry 1 14 (track 6) {}

/-- Only `input_thread` closes sockets behind the back of the registry. -/
lemma unlinks_of_action (h : ∀ t, e.action ≠ .input t) : Unlinks e D := by
  rintro a ⟨t, -, hact, -⟩
  exact h t hact

/-- The main loop makes the next callback. -/
def callNext : Event := ⟨.dispatch, {}⟩

/-- The theorem for two hosts with a tracker each. -/
theorem registry_live_two : ∃ D, ReachableBy Unlinks D ∧ D.jdwpTrackersList = [0, 2] ∧
    (∀ a ∈ D.jdwpTrackersList, LiveEntry { d := D } a) ∧
    ∀ a, D.step callNext ≠ .error (.staleTracker a) := by
  obtain ⟨D, hD, hlist⟩ := @exists_reachableBy Unlinks (List Addr) unlocked [3, 4, 6, 7, 8, 9]
    (fun _ => false) twoTrackers
    (fun e _ => match e.action with | .input _ => false | _ => true) (·.jdwpTrackersList) [0, 2]
    (fun e _ _ h => unlinks_of_action fun t ht => by simp [ht] at h) (by decide +kernel)
  obtain ⟨hlive, hsteps⟩ := registry_live hD
  exact ⟨D, hD, hlist, hlive, (hsteps callNext (unlinks_of_action nofun)).2⟩

/-- The first host sends the packet that ends a connection, connects again and opens a tracker;
the `input_thread` of its transport takes the packet for the end and closes all sockets, and then
the second host closes its own tracker. -/
def endForged : List Event :=
  connect 0 10 11 12 ++ carry 0 11 hello {} ++ carry 0 11 (packetOf aSync 0 0 []) {} ++
    carry 0 11 hello {} ++ carry 0 11 (track 5) {} ++ connect 1 13 14 15 ++
    carry 1 14 hello {} ++ carry 1 14 (track 6) {} ++ List.replicate 4 ⟨.input 0, {}⟩ ++
    [⟨.output 1, { packet := some (packetOf aClse 6 2 []) }⟩,
      ⟨.epollWait [(14, ⟨true, false, false⟩)], {}⟩]

/-- The first tracker has been freed when the second takes itself off the registry. -/
theorem not_registry_live : ∃ D, Reachable D ∧ 0 ∈ D.jdwpTrackersList ∧ D.sockets 0 = none ∧
    ¬LiveEntry { d := D } 0 ∧ D.step callNext = .error (.staleTracker 0) := by
  obtain ⟨D, hD, hf⟩ := @exists_reachable (List Addr × Bool × Option Stop) unlocked
    [3, 4, 6, 7, 8, 9] (fun _ => false) endForged
    (fun D => (D.jdwpTrackersList, (D.sockets 0).isSome, stopOf (D.step callNext)))
    ([0, 2], false, some (.staleTracker 0)) (by decide +kernel)
  simp only [Prod.mk.injEq, Option.isSome_eq_false_iff, Option.isNone_iff_eq_none] at hf
  obtain ⟨hlist, hfreed, hstop⟩ := hf
  refine ⟨D, hD, by simp [hlist], hfreed, ?_, error_of_stopOf hstop⟩
  rintro ⟨s, hs, -⟩
  cases hfreed.symm.trans hs

end Adbd.TrackerRegistry
