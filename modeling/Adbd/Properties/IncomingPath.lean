import Adbd.Properties.OutgoingPath

/-!
# The incoming path

What `output_thread` of a transport reads from its remote goes through the socket pair to the main
loop, which hands it to `handle_packet`.  The thread adds two packets of its own: an `A_SYNC` with
the transport's token before anything else, and one with `arg0 = 0` when reading has failed.

Nothing on the way drops a packet but the write to the pair.  When it fails the thread reads no
more, so what is handled is at every moment a beginning of what was read; and if the pair is left
alone, all of it is in the pair or handled.
-/

namespace Adbd.IncomingPath

open Function Relation Transition FlagWord Daemon PeerLinks
open OutgoingPath (PairHeld pairHeld pairHeld_of_test register_iff)

/-! ## What goes in and what comes out -/

/-- What a packet says. -/
def content (p : Apacket) : Amessage × List UInt8 := (p.msg, p.payload)

/-- What `handle_packet` was given of `t`, in order. -/
def handledOf (t : TAddr) (os : List Obs) : List (Amessage × List UInt8) :=
  (os.filterMap fun
    | .received u p => if u = t then some (content p) else none
    | _ => none).reverse

/-- What `read_from_remote` returns to `output_thread` of `t` in a step. -/
def readFrom (t : TAddr) (e : Event) (D : Daemon) : List (Amessage × List UInt8) :=
  if e.action = .output t ∧ (D.transports t).any (·.output = .reading) = true then
    (e.io.packet.map content).toList
  else []

/-- The first packet of `output_thread`. -/
def greeting (token : UInt32) : Amessage × List UInt8 := (syncPacket 1 token, [])

/-- Its last. -/
def farewell : Amessage × List UInt8 := (syncPacket 0 0, [])

section History

variable {t u : TAddr} {o : Obs} {p : Apacket} {os tr : List Obs}

lemma handledOf_received : handledOf t (.received t p :: os) = handledOf t os ++ [content p] := by
  simp [handledOf]

/-- Observations that are no packet of `t` coming in. -/
def Silent (t : TAddr) : Obs → Prop
  | .received u _ => u ≠ t
  | _ => True

lemma handledOf_cons (h : Silent t o) : handledOf t (o :: os) = handledOf t os := by
  cases o with
  | received u p => simp [handledOf, show u ≠ t from h]
  | _ => rfl

lemma handledOf_append (h : ∀ o ∈ os, Silent t o) : handledOf t (os ++ tr) = handledOf t tr := by
  induction os with
  | nil => rfl
  | cons o os ih =>
    rw [List.cons_append, handledOf_cons (h o List.mem_cons_self)]
    exact ih fun x hx => h x (List.mem_cons_of_mem _ hx)

lemma silent_of_thread (h : o.ofThread u) : Silent t o := by
  cases o <;> trivial

end History

/-! ## The line -/

/-- What is in the pair of a transport, and where its `output_thread` is. -/
def look (x : Atransport) : List (Amessage × List UInt8) × OutputPc :=
  (x.toMain.map content, x.output)

/-- What has been written to the pair, for each position of the thread; `whole` says that no write
to it has failed. -/
def Written (whole : Prop) (reads written : List (Amessage × List UInt8)) : OutputPc → Prop
  | .start => written = [] ∧ reads = []
  | .reading | .sendSync => ∃ token, written = greeting token :: reads
  | _ => ∃ token, written <+: greeting token :: reads ++ [farewell] ∧
      (whole → written = [] ∨ written = greeting token :: reads ++ [farewell])

/-- What the remote of `t` sent, as far as it was read, has been handled or is in the pair. -/
structure Incoming (whole : Prop) (t : TAddr) (reads : List (Amessage × List UInt8)) (D : Daemon) :
    Prop where
  unborn : D.nextTAddr ≤ t → handledOf t D.trace = [] ∧ reads = []
  waiting : (t, .register) ∈ D.registration → handledOf t D.trace = [] ∧ reads = []
  line : ∀ l, (D.transports t).map look = some l →
    Written whole reads (handledOf t D.trace ++ l.1) l.2
  gone : D.transports t = none →
    ∃ token, handledOf t D.trace <+: greeting token :: reads ++ [farewell]

section Written

variable {whole : Prop} {reads written : List (Amessage × List UInt8)} {pc : OutputPc}

/-- The thread is past its last write to the pair. -/
def Late (pc : OutputPc) : Prop := pc ≠ .start ∧ pc ≠ .reading ∧ pc ≠ .sendSync

lemma written_late (hpc : Late pc) : Written whole reads written pc ↔
    ∃ token, written <+: greeting token :: reads ++ [farewell] ∧
      (whole → written = [] ∨ written = greeting token :: reads ++ [farewell]) := by
  obtain ⟨hstart, hread, hsync⟩ := hpc
  cases pc with
  | start => exact absurd rfl hstart
  | reading => exact absurd rfl hread
  | sendSync => exact absurd rfl hsync
  | _ => exact Iff.rfl

/-- At every position, what was written is a beginning of what was read. -/
lemma Written.inOrder (h : Written whole reads written pc) :
    ∃ token, written <+: greeting token :: reads ++ [farewell] := by
  cases pc
  case start => exact ⟨0, h.1 ▸ List.nil_prefix⟩
  case reading =>
    obtain ⟨token, rfl⟩ := h
    exact ⟨token, List.prefix_append _ _⟩
  case sendSync =>
    obtain ⟨token, rfl⟩ := h
    exact ⟨token, List.prefix_append _ _⟩
  all_goals
    obtain ⟨token, hpre, -⟩ := h
    exact ⟨token, hpre⟩

end Written

/-! ## Every step but the thread's own -/

section Changes

variable {e : Event} {D₀ : Daemon} {m m' : Moment} {t : TAddr} {whole : Prop}
  {reads : List (Amessage × List UInt8)}

/-- What the line depends on is the same. -/
lemma Incoming.congr (h : Incoming whole t reads m.d)
    (hnext : m.d.nextTAddr ≤ m'.d.nextTAddr)
    (hreg : (t, .register) ∈ m'.d.registration → (t, .register) ∈ m.d.registration)
    (hlook : (m'.d.transports t).map look = (m.d.transports t).map look)
    (htrace : handledOf t m'.d.trace = handledOf t m.d.trace) : Incoming whole t reads m'.d := by
  refine ⟨fun hle => ?_, fun hmem => ?_, fun l hl => ?_, fun hnone => ?_⟩
  · rw [htrace]
    exact h.unborn (hnext.trans hle)
  · rw [htrace]
    exact h.waiting (hreg hmem)
  · rw [htrace]
    exact h.line l (hlook ▸ hl)
  · rw [htrace]
    rw [hnone, Option.map_none] at hlook
    exact h.gone (Option.map_eq_none_iff.mp hlook.symm)

lemma look_assign {T : TAddr → Option Atransport} {u : TAddr} {x x' : Atransport}
    (hx : T u = some x) (hlook : look x' = look x) :
    (update T u (some x') t).map look = (T t).map look := by
  by_cases htu : t = u
  · rw [htu, update_self, hx, Option.map_some, Option.map_some, hlook]
  · rw [update_of_ne htu]

lemma look_elsewhere {T : TAddr → Option Atransport} {u : TAddr} {z : Option Atransport}
    (hut : u ≠ t) : (update T u z t).map look = (T t).map look := by
  rw [update_of_ne (Ne.symm hut)]

/-- The main loop takes a packet out of the pair. -/
lemma Incoming.receive (h : Incoming whole t reads m.d) (hwf : Wf m) {x : Atransport}
    {p : Apacket} {rest : List Apacket} (hx : m.d.transports t = some x)
    (hp : x.toMain = p :: rest)
    (hT : m'.d.transports = update m.d.transports t (some { x with toMain := rest }))
    (hnext : m'.d.nextTAddr = m.d.nextTAddr) (hreg : m'.d.registration = m.d.registration)
    (htrace : m'.d.trace = .received t p :: m.d.trace) : Incoming whole t reads m'.d := by
  have hhandled : handledOf t m'.d.trace = handledOf t m.d.trace ++ [content p] := by
    rw [htrace, handledOf_received]
  refine ⟨fun hle => ?_, fun hmem => ?_, fun l hl => ?_, fun hnone => ?_⟩
  · have hlt := hwf.queue.fresh t x hx
    rw [hnext] at hle
    exact absurd hle (Nat.not_le_of_lt hlt)
  · rw [hreg] at hmem
    obtain ⟨-, hnil, -⟩ := hwf.queue.waiting t x hmem hx
    rw [hp] at hnil
    cases hnil
  · rw [hT, update_self, Option.map_some, Option.some.injEq] at hl
    subst hl
    have hline := h.line (look x) (by rw [hx, Option.map_some])
    rw [hhandled, List.append_assoc]
    rw [look, hp] at hline
    exact hline
  · rw [hT, update_self] at hnone
    cases hnone

/-- A change made in any other step than one of `output_thread` keeps the line. -/
theorem incoming_effect (he : Effect e D₀ m m') (hwf : Wf m) (hact : e.action ≠ .output t)
    (h : Incoming whole t reads m.d) : Incoming whole t reads m'.d := by
  have hone : ∀ {o : Obs}, Silent t o → handledOf t (o :: m.d.trace) = handledOf t m.d.trace :=
    handledOf_cons
  cases he
  case note o ho =>
    refine h.congr le_rfl id rfl (hone ?_)
    cases o with
    | received => exact ho.elim
    | _ => trivial
  case receive u x p rest hx hp hidle =>
    by_cases hut : u = t
    · subst hut
      exact h.receive hwf hx hp rfl rfl rfl rfl
    · exact h.congr le_rfl id (look_elsewhere hut) (hone hut)
  case send via p u x hx hmay hopen habout hcmd hsync =>
    exact h.congr le_rfl id (look_assign hx rfl) (hone trivial)
  case okay a r s q p u x ha hs hq hp hr hx hmay hopen howed hcmd hid hdest =>
    exact h.congr le_rfl id (look_assign hx rfl) (hone trivial)
  case tweak u x x' hx hx' =>
    refine h.congr le_rfl id (look_assign hx ?_) rfl
    rw [hx']
    rfl
  case offline u x hx => exact h.congr le_rfl id (look_assign hx rfl) rfl
  case down u x hx hidle => exact h.congr le_rfl id (look_assign hx rfl) rfl
  case up u x hx hserve hopen => exact h.congr le_rfl id (look_assign hx rfl) rfl
  case verified u x hx hidle hok => exact h.congr le_rfl id (look_assign hx rfl) (hone trivial)
  case banner u x text hx hserve =>
    obtain ⟨st, a, b, c, hb⟩ := parseBanner_eq text x
    refine h.congr le_rfl id (look_assign hx ?_) rfl
    rw [hb]
    rfl
  case dropRemote r s u x hs hr hops ht hx => exact h.congr le_rfl id (look_assign hx rfl) rfl
  case pair a s rid u x hs hp hc hl hin hnew hx hserve hon opened hopened =>
    refine h.congr le_rfl id (look_assign hx rfl) ?_
    cases opened <;> rfl
  case wrteRead a r s q p u x ev L ha hs hops hp hto hin hset hev hread hwrite hevents hsub hb _ =>
    exact h.congr le_rfl id (look_assign hto.alive rfl) rfl
  case wrteJdwp a r s q p u x ha hs hops hp hto hpass =>
    exact h.congr le_rfl id (look_assign hto.alive rfl) rfl
  case wrteTracker a r s q p u x ha hs hops hp hto hneed =>
    exact h.congr le_rfl id (look_assign hto.alive rfl) rfl
  case register x hx hown =>
    by_cases ht : t = m.d.nextTAddr
    · obtain ⟨hhandled, hreads⟩ := h.unborn ht.ge
      refine ⟨fun hle => ?_, fun _ => ⟨hhandled, hreads⟩, fun l hl => ?_, fun hnone => ?_⟩
      · exact absurd hle (by rw [ht]; exact Nat.not_succ_le_self _)
      · subst ht
        change (update m.d.transports m.d.nextTAddr (some x) m.d.nextTAddr).map look = some l at hl
        rw [update_self, hx, Option.map_some, Option.some.injEq] at hl
        subst hl
        refine ⟨0, ?_, fun _ => .inl ?_⟩
        · change handledOf m.d.nextTAddr m.d.trace ++ [] <+: _
          rw [hhandled]
          exact List.nil_prefix
        · change handledOf m.d.nextTAddr m.d.trace ++ [] = _
          rw [hhandled]
          rfl
      · subst ht
        change update m.d.transports m.d.nextTAddr (some x) m.d.nextTAddr = none at hnone
        rw [update_self] at hnone
        cases hnone
    · refine h.congr (Nat.le_succ _) (fun hmem => ?_) (look_elsewhere (Ne.symm ht)) (hone trivial)
      rcases List.mem_append.mp hmem with hmem | hmem
      · exact hmem
      · cases List.mem_singleton.mp hmem
        exact absurd rfl ht
  case enlist u x rest hreg hx hstate =>
    refine h.congr le_rfl (fun hmem => ?_) (look_assign hx rfl) (hone trivial)
    rw [hreg]
    exact List.mem_cons_of_mem _ hmem
  case start u x rest n k L M hreg hx hn hk hnk hL hM =>
    have hmem : (u, .register) ∈ m.d.registration := hreg ▸ List.mem_cons_self
    have hrest : ∀ {x}, x ∈ rest → x ∈ m.d.registration := fun hx =>
      hreg ▸ List.mem_cons_of_mem _ hx
    by_cases hut : u = t
    · subst hut
      obtain ⟨hhandled, hreads⟩ := h.waiting hmem
      obtain ⟨-, hnil, -⟩ := hwf.queue.waiting u x hmem hx
      refine ⟨fun hle => ?_, fun _ => ⟨hhandled, hreads⟩, fun l hl => ?_, fun hnone => ?_⟩
      · exact absurd hle (Nat.not_le_of_lt (hwf.queue.fresh u x hx))
      · change (update m.d.transports u _ u).map look = some l at hl
        rw [update_self, Option.map_some, Option.some.injEq] at hl
        subst hl
        refine ⟨?_, hreads⟩
        change handledOf u m.d.trace ++ x.toMain.map content = []
        rw [hhandled, hnil]
        rfl
      · change update m.d.transports u _ u = none at hnone
        rw [update_self] at hnone
        cases hnone
    · exact h.congr le_rfl hrest (look_elsewhere hut) (hone trivial)
  case unplug u x rest L hreg hx hrem hsame hL own own' =>
    obtain ⟨os, htrace, hos⟩ := unplug_trace own own'
      (has (m.d.loop.mem (.transport u)).state fdeActive) m.d.trace
    refine h.congr le_rfl (fun hmem => ?_) rfl ?_
    · rw [hreg]
      exact List.mem_cons_of_mem _ hmem
    · refine (congrArg (handledOf t) htrace).trans (handledOf_append fun o ho => ?_)
      rcases hos o ho with ⟨d, i, b, rfl⟩ | rfl <;> trivial
  case freeTransport u x hidle hx hd hrem hhist hreg hin =>
    by_cases hut : u = t
    · subst hut
      obtain ⟨token, hpre⟩ := (h.line (look x) (by rw [hx, Option.map_some])).inOrder
      refine ⟨h.unborn, h.waiting, fun l hl => ?_, fun _ => ⟨token, ?_⟩⟩
      · change (update m.d.transports u none u).map look = some l at hl
        rw [update_self] at hl
        cases hl
      · exact (List.prefix_append _ _).trans hpre
    · exact h.congr le_rfl id (look_elsewhere hut) rfl
  case output u x y L R os n hidle hx hact' hstep =>
    have hut : u ≠ t := by
      rintro rfl
      exact hact hact'
    obtain ⟨-, -, hR⟩ := hstep.running (hwf.queue.refs u x hx)
    exact h.congr le_rfl (register_iff (hR.imp_right And.left)).mp (look_elsewhere hut)
      (handledOf_append fun o ho => silent_of_thread (hstep.ofThread ho))
  case input u x y L R os n hidle hx hstart hstep =>
    obtain ⟨-, -, hR⟩ := hstep.running (hwf.queue.refs u x hx)
    refine h.congr le_rfl (register_iff (hR.imp_right And.left)).mp (look_assign hx ?_)
      (handledOf_append fun o ho => silent_of_thread (hstep.ofThread ho))
    rw [hstep.frame]
    rfl
  case closedAll u x hidle hx hpc => exact h.congr le_rfl id (look_assign hx rfl) rfl
  all_goals exact h.congr le_rfl id rfl rfl

end Changes

/-! ## The steps of the thread -/

section Thread

variable {e : Event} {D D' : Daemon} {t : TAddr} {x : Atransport} {whole : Prop}
  {reads : List (Amessage × List UInt8)}

lemma look_push (p : Apacket) (pc : OutputPc) :
    look { x with toMain := x.toMain ++ [p], output := pc } =
      ((look x).1 ++ [content p], pc) := by
  rw [look, List.map_append, List.map_singleton]
  rfl

/-- Where the thread stands after a step in which it wrote `c`, or failed to. -/
def Wrote (D D' : Daemon) (t : TAddr) (x : Atransport) (c : Amessage × List UInt8)
    (pc : OutputPc) : Prop :=
  D.pairOpen t x = true ∧ (D'.transports t).map look = some ((look x).1 ++ [c], pc) ∨
    D.pairOpen t x = false ∧ (D'.transports t).map look = some ((look x).1, .kickTest)

lemma start_ok (hx : D.transports t = some x) (hpc : x.output = .start)
    (h : D.outputThread t = .ok D') : ∃ token, Wrote D D' t x (greeting token) .reading := by
  refine ⟨x.syncToken + 1, ?_⟩
  rw [outputThread, bind_eq_ok_iff] at h
  obtain ⟨y, hy, h⟩ := h
  rw [derefT_eq_ok, hx, Option.some.injEq] at hy
  subst hy
  rw [hpc] at h
  rcases writeToMain_setOutput_ok h (setTransport_transports_self ..) with
    ⟨hopen, rfl⟩ | ⟨hopen, rfl⟩
  · refine .inl ⟨hopen, ?_⟩
    rw [setTransport_transports_self, Option.map_some]
    exact congrArg some (look_push (x := { x with syncToken := x.syncToken + 1 })
      { addr := D.nextPacket, msg := syncPacket 1 (x.syncToken + 1) } _)
  · refine .inr ⟨hopen, ?_⟩
    rw [setTransport_transports_self]
    rfl

lemma reading_ok (hx : D.transports t = some x) (hpc : x.output = .reading)
    (h : D.outputThread t = .ok D') :
    D.io.packet = none ∧ (D'.transports t).map look = some ((look x).1, .sendSync) ∨
      ∃ q, D.io.packet = some q ∧ Wrote D D' t x (content q) .reading := by
  rw [outputThread, bind_eq_ok_iff] at h
  obtain ⟨y, hy, h⟩ := h
  rw [derefT_eq_ok, hx, Option.some.injEq] at hy
  subst hy
  rw [hpc] at h
  simp only at h
  split at h
  case h_1 hq =>
    have hD' := setOutput_ok h (x := x) hx
    refine .inl ⟨hq, ?_⟩
    rw [hD', setTransport_transports_self]
    rfl
  case h_2 q hq =>
    refine .inr ⟨q, hq, ?_⟩
    split at h
    case isTrue => cases h
    case isFalse =>
      rcases writeToMain_setOutput_ok h (x := x) hx with ⟨hopen, rfl⟩ | ⟨hopen, rfl⟩
      · refine .inl ⟨hopen, ?_⟩
        rw [setTransport_transports_self, Option.map_some]
        exact congrArg some (look_push { q with addr := D.nextPacket, len := 0, ptr := 0 } _)
      · refine .inr ⟨hopen, ?_⟩
        rw [setTransport_transports_self]
        rfl

lemma sendSync_ok (hx : D.transports t = some x) (hpc : x.output = .sendSync)
    (h : D.outputThread t = .ok D') : Wrote D D' t x farewell .kickTest := by
  rw [outputThread, bind_eq_ok_iff] at h
  obtain ⟨y, hy, h⟩ := h
  rw [derefT_eq_ok, hx, Option.some.injEq] at hy
  subst hy
  rw [hpc] at h
  simp only at h
  rw [bind_eq_ok_iff] at h
  obtain ⟨⟨ok, D₁⟩, h₁, h⟩ := h
  rcases writeToMain_ok h₁ (x := x) hx with ⟨hopen, rfl, rfl⟩ | ⟨hopen, rfl, rfl⟩
  · have hD' := setOutput_ok h (setTransport_transports_self ..)
    refine .inl ⟨hopen, ?_⟩
    rw [hD', setTransport_transports_self, Option.map_some]
    exact congrArg some (look_push { addr := D.nextPacket, msg := syncPacket 0 0 } _)
  · have hD' := setOutput_ok h (x := x) hx
    refine .inr ⟨hopen, ?_⟩
    rw [hD', setTransport_transports_self]
    rfl

/-- A write to the pair that fails ends the reading. -/
lemma Written.failed {written : List (Amessage × List UInt8)} {token : UInt32}
    {more : List (Amessage × List UInt8)} (hno : ¬whole)
    (h : written <+: greeting token :: (reads ++ more) ++ [farewell]) :
    Written whole (reads ++ more) written .kickTest :=
  ⟨token, h, fun hw => absurd hw hno⟩

/-- A step of the thread that is past its last write. -/
lemma late_ok (hx : D.transports t = some x) (h : D.outputThread t = .ok D')
    (hpc : Late x.output) :
    ∃ pc, (D'.transports t).map look = some ((look x).1, pc) ∧ Late pc := by
  obtain ⟨hstart, hread, hsync⟩ := hpc
  obtain ⟨y, L, R, os, n, hstep, rfl⟩ := outputThread_ok hx h
  have hself : (D.threadResult t y L R os n).transports t = some y := update_self ..
  rw [hself, Option.map_some]
  cases hstep with
  | greet p hno => exact absurd hno hstart
  | push p hno => exact absurd hno hread
  | ended i hno => exact absurd hno hread
  | sync p hno => exact absurd hno hsync
  | fail token i hno => exact (hno.elim hstart fun hno => hno.elim hread hsync).elim
  | test pc hno hpc =>
    refine ⟨pc, rfl, ?_⟩
    rcases hpc with rfl | ⟨rfl, -⟩ <;> exact ⟨nofun, nofun, nofun⟩
  | lock => exact ⟨.kickCall, rfl, nofun, nofun, nofun⟩
  | kick y L os hno hkick =>
    refine ⟨.unref, ?_, nofun, nofun, nofun⟩
    rw [hkick.frame]
    rfl
  | unref y L R os hno hunref =>
    refine ⟨.done, ?_, nofun, nofun, nofun⟩
    rw [hunref.frame]
    rfl

/-- What the line comes to after a step of the thread. -/
lemma written_output (hx : D.transports t = some x) (h : D.outputThread t = .ok D')
    (hopen : whole → D.pairOpen t x = true) {before : List (Amessage × List UInt8)}
    (hw : Written whole reads (before ++ (look x).1) x.output) :
    ∀ l, (D'.transports t).map look = some l →
      Written whole (reads ++ if x.output = .reading then (D.io.packet.map content).toList else [])
        (before ++ l.1) l.2 := by
  intro l hl
  have hno : D.pairOpen t x = false → ¬whole := by
    intro hclosed hw
    rw [hopen hw] at hclosed
    cases hclosed
  by_cases hstart : x.output = .start
  · rw [if_neg (by rw [hstart]; decide), List.append_nil]
    rw [hstart] at hw
    obtain ⟨hnil, hreads⟩ := hw
    obtain ⟨token, ⟨-, hlook⟩ | ⟨hclosed, hlook⟩⟩ := start_ok hx hstart h
    all_goals
      rw [hlook, Option.some.injEq] at hl
      subst hl
    · refine ⟨token, ?_⟩
      rw [← List.append_assoc, hnil, hreads]
      rfl
    · refine ⟨0, ?_, fun _ => .inl hnil⟩
      rw [hnil]
      exact List.nil_prefix
  by_cases hread : x.output = .reading
  · rw [if_pos hread]
    rw [hread] at hw
    obtain ⟨token, hw⟩ := hw
    rcases reading_ok hx hread h with ⟨hnone, hlook⟩ | ⟨q, hq, ⟨-, hlook⟩ | ⟨hclosed, hlook⟩⟩
    all_goals
      rw [hlook, Option.some.injEq] at hl
      subst hl
    · rw [hnone]
      exact ⟨token, by simpa using hw⟩
    · rw [hq]
      refine ⟨token, ?_⟩
      rw [← List.append_assoc, hw]
      rfl
    · rw [hq]
      refine @Written.failed _ _ _ token _ (hno hclosed) ?_
      rw [hw, ← List.cons_append, List.append_assoc]
      exact List.prefix_append _ _
  rw [if_neg hread, List.append_nil]
  by_cases hsync : x.output = .sendSync
  · rw [hsync] at hw
    obtain ⟨token, hw⟩ := hw
    rcases sendSync_ok hx hsync h with ⟨-, hlook⟩ | ⟨hclosed, hlook⟩
    all_goals
      rw [hlook, Option.some.injEq] at hl
      subst hl
    · have hall : before ++ ((look x).1 ++ [farewell]) = greeting token :: reads ++ [farewell] := by
        rw [← List.append_assoc, hw]
      exact ⟨token, hall ▸ List.prefix_rfl, fun _ => .inr hall⟩
    · refine ⟨token, ?_, fun hyes => absurd hyes (hno hclosed)⟩
      rw [hw]
      exact List.prefix_append _ _
  · obtain ⟨pc, hlook, hpc⟩ := late_ok hx h ⟨hstart, hread, hsync⟩
    rw [hlook, Option.some.injEq] at hl
    subst hl
    exact (written_late hpc).mpr ((written_late ⟨hstart, hread, hsync⟩).mp hw)

/-- A step of `output_thread` adds what it has read. -/
theorem incoming_output (hwf : Wf { d := D }) (hx : D.transports t = some x)
    (h : D.outputThread t = .ok D') (hheld : whole → x.running ≠ 0 → D.pairOpen t x = true)
    (hin : Incoming whole t reads D) :
    Incoming whole t
      (reads ++ if x.output = .reading then (D.io.packet.map content).toList else []) D' := by
  obtain ⟨y, L, R, os, n, hstep, rfl⟩ := outputThread_ok hx h
  obtain ⟨hrun, -, hR⟩ := hstep.running (hwf.queue.refs t x hx)
  have hhandled : handledOf t (os ++ D.trace) = handledOf t D.trace :=
    handledOf_append fun o ho => silent_of_thread (hstep.ofThread ho)
  have hself : (D.threadResult t y L R os n).transports t = some y := update_self ..
  have hlt : t < D.nextTAddr := hwf.queue.fresh t x hx
  have hwait : (t, .register) ∉ D.registration := by
    intro hmem
    obtain ⟨z, hz, hnone⟩ := hwf.queue.queued t _ hmem
    cases hx.symm.trans hz
    exact hrun hnone
  refine ⟨fun hle => absurd hle (Nat.not_le_of_lt hlt), fun hmem => ?_, fun l hl => ?_,
    fun hnone => ?_⟩
  · have hold := (register_iff (t := t) (hR.imp_right And.left)).mp hmem
    exact absurd hold hwait
  · change Written whole _ (handledOf t (os ++ D.trace) ++ l.1) l.2
    rw [hhandled]
    have hline := hin.line (look x) (by rw [hx, Option.map_some])
    exact written_output hx h (fun hw => hheld hw hrun) hline l hl
  · rw [hself] at hnone
    cases hnone

end Thread

/-! ## Runs -/

section Runs

variable {t : TAddr} {e : Event} {D₀ D D' : Daemon} {es : List Event} {whole : Prop}
  {reads : List (Amessage × List UInt8)}

/-- A step, be it the thread's or not, adds what was read in it. -/
lemma incoming_step (hwf : Wf { d := D }) (hheld : whole → PairHeld t e D)
    (h : D.step e = .ok D') (hin : Incoming whole t reads D) :
    Incoming whole t (reads ++ readFrom t e D) D' := by
  by_cases hact : e.action = .output t
  · rw [step, hact] at h
    change (if (D.transports t).isSome then Daemon.outputThread t { D with io := e.io }
      else .error .disabled) = .ok D' at h
    split at h
    case isFalse => cases h
    case isTrue hsome =>
      obtain ⟨x, hx⟩ := Option.isSome_iff_exists.mp hsome
      have hwf' : Wf { d := { D with io := e.io } } := by
        have henv : Effect e D { d := D } _ := .env { d := D } e.io D.nextPacket
        exact henv.wf hwf
      have hin' : Incoming whole t reads { D with io := e.io } :=
        ⟨hin.unborn, hin.waiting, hin.line, hin.gone⟩
      have hout := incoming_output hwf' hx h (fun hw => hheld hw x hx) hin'
      rw [readFrom, show D.transports t = some x from hx, Option.any_some]
      simp only [hact, true_and, decide_eq_true_eq]
      exact hout
  · rw [readFrom, if_neg fun hno => hact hno.1, List.append_nil]
    have hkept : Kept (fun e _ => e.action ≠ .output t) fun m => Incoming whole t reads m.d :=
      fun _ _ _ _ hact _ _ _ hwf hin he => incoming_effect he hwf hact hin
    exact hkept.step (D := D) hact hwf hin h

/-- What the remote of `t` sends, from the read of `output_thread` to `handle_packet`. -/
structure Faithful (whole : Prop) (t : TAddr) (reads : List (Amessage × List UInt8))
    (D : Daemon) : Prop where
  /-- What is handled is a beginning of what was read, between the two packets of the thread. -/
  inOrder : ∃ token, handledOf t D.trace <+: greeting token :: reads ++ [farewell]
  /-- As long as the thread reads, all that is not handled yet is in the pair. -/
  inFlight : ∀ x, D.transports t = some x → x.output = .reading → ∃ token,
    handledOf t D.trace ++ x.toMain.map content = greeting token :: reads
  /-- When the thread has written its last packet and no write failed, nothing is missing; a
  transport that was never started has nothing. -/
  complete : whole → ∀ x, D.transports t = some x → Late x.output →
    handledOf t D.trace ++ x.toMain.map content = [] ∨ ∃ token,
      handledOf t D.trace ++ x.toMain.map content = greeting token :: reads ++ [farewell]

lemma Incoming.faithful (h : Incoming whole t reads D) : Faithful whole t reads D := by
  refine ⟨?_, fun x hx hpc => ?_, fun hw x hx hpc => ?_⟩
  · cases hx : D.transports t with
    | none => exact h.gone hx
    | some x =>
      obtain ⟨token, hpre⟩ := (h.line (look x) (by rw [hx, Option.map_some])).inOrder
      exact ⟨token, (List.prefix_append _ _).trans hpre⟩
  · have hline := h.line (look x) (by rw [hx, Option.map_some])
    rw [show (look x).2 = .reading from hpc] at hline
    exact hline
  · have hline := h.line (look x) (by rw [hx, Option.map_some])
    obtain ⟨token, -, hall⟩ := (written_late hpc).mp hline
    exact (hall hw).imp_right fun hall => ⟨token, hall⟩

end Runs

/-! ## A run -/

/-- A host is greeted, and its connection ends. -/
def hangsUp : List Event :=
  connect 0 10 11 12 ++ OutgoingPath.greet 0 11 ++ List.replicate 2 ⟨.output 0, {}⟩ ++
    handleNext 11 {}

end Adbd.IncomingPath
