import Adbd.Effects.Streams
import Adbd.Framework.History
import Adbd.Properties.StreamIds

/-!
# From a service to its host

What the `FDE_READ` branch reads from the descriptor of a service goes to the host in `A_WRTE`
packets.  As long as the stream is open, all that has been read has been sent; what is read in
the callback that finds the end of file is sent before the `A_CLSE`, and nothing is sent after it.

A stream that the daemon closes itself may go on reading: the socket stays until its queue is
written, and a notification that the shell has exited makes it read once more.  It has no peer by
then, and what it reads is discarded.
-/

namespace Adbd.ServiceBytes

open Function FlagWord Relation Transition Daemon History PeerLinks

/-! ## What goes in and what comes out -/

/-- What was read from the descriptor of `a`, in order. -/
def readBy (a : Addr) (os : List Obs) : List UInt8 :=
  (os.filterMap fun
    | .read b bs => if b = a then some bs else none
    | _ => none).reverse.flatten

/-- The payloads of the `A_WRTE` packets sent on behalf of `r`, in order. -/
def payloads (r : Addr) (os : List Obs) : List (List UInt8) :=
  (os.filterMap fun
    | .sent _ via p => if via = some r ∧ p.msg.command = aWrte then some p.payload else none
    | _ => none).reverse

/-- An `A_CLSE` was sent on behalf of `r`. -/
def ended (r : Addr) (os : List Obs) : Bool :=
  os.any fun
    | .sent _ via p => decide (via = some r ∧ p.msg.command = aClse)
    | _ => false

/-- What is sent on behalf of `r` is sent at the right time: an `A_WRTE` carries something and
comes before the `A_CLSE`, which comes when all that was read has been sent. -/
def Orderly (a r : Addr) : Obs → List Obs → Prop
  | .sent _ via p, os => via = some r →
      (p.msg.command = aWrte →
        p.payload ≠ [] ∧ p.payload.length ≤ maxPayload ∧ ended r os = false) ∧
      (p.msg.command = aClse → readBy a os = (payloads r os).flatten)
  | _, _ => True

/-- The bytes that the service at `a` writes reach the host at the other end of `r`. -/
structure Delivered (a r : Addr) (D : Daemon) : Prop where
  /-- While the stream is open, all that has been read has been sent. -/
  whole : ∀ s, D.sockets a = some s → s.peer = some r →
    readBy a D.trace = (payloads r D.trace).flatten
  /-- What has been sent has been read, from the first byte on and in order. -/
  sound : (payloads r D.trace).flatten <+: readBy a D.trace
  orderly : Always (Orderly a r) D.trace

section History

variable {a b r : Addr} {t : TAddr} {via : Option Addr} {p : Apacket} {o : Obs}
  {os tr : List Obs} {bs : List UInt8}

/-- Observations that are no part of the stream's data. -/
def Silent (a r : Addr) : Obs → Prop
  | .read b bs => b = a → bs = []
  | .sent _ via p => via = some r → p.msg.command ≠ aWrte ∧ p.msg.command ≠ aClse
  | _ => True

lemma readBy_read : readBy a (.read a bs :: os) = readBy a os ++ bs := by
  simp [readBy]

lemma readBy_cons (h : Silent a r o) : readBy a (o :: os) = readBy a os := by
  cases o with
  | read b bs =>
    by_cases hb : b = a
    · subst hb
      rw [readBy_read, h rfl, List.append_nil]
    · simp [readBy, hb]
  | _ => rfl

lemma payloads_sent (hp : p.msg.command = aWrte) :
    payloads r (.sent t (some r) p :: os) = payloads r os ++ [p.payload] := by
  simp [payloads, hp]

lemma payloads_cons (h : Silent a r o) : payloads r (o :: os) = payloads r os := by
  cases o with
  | sent t via p =>
    have hno : ¬(via = some r ∧ p.msg.command = aWrte) := fun hboth =>
      (h hboth.1).1 hboth.2
    simp [payloads, hno]
  | _ => rfl

lemma ended_cons (h : Silent a r o) : ended r (o :: os) = ended r os := by
  cases o with
  | sent t via p =>
    have hno : ¬(via = some r ∧ p.msg.command = aClse) := fun hboth =>
      (h hboth.1).2 hboth.2
    simp [ended, hno]
  | _ => rfl

lemma orderly_of_silent (h : Silent a r o) : Orderly a r o os := by
  cases o with
  | sent t via p => exact fun hvia => ⟨fun hno => absurd hno (h hvia).1,
      fun hno => absurd hno (h hvia).2⟩
  | _ => trivial

/-- The history of a stream after observations that do not belong to it. -/
structure Same (a r : Addr) (tr tr' : List Obs) : Prop where
  read : readBy a tr' = readBy a tr
  sent : payloads r tr' = payloads r tr
  ended : ended r tr' = ended r tr
  orderly : Always (Orderly a r) tr → Always (Orderly a r) tr'

lemma same_refl : Same a r tr tr := ⟨rfl, rfl, rfl, id⟩

lemma Same.cons (h : Same a r tr os) (ho : Silent a r o) : Same a r tr (o :: os) :=
  ⟨(readBy_cons ho).trans h.read, (payloads_cons ho).trans h.sent,
    (ended_cons ho).trans h.ended, fun htr => always_cons.mpr ⟨orderly_of_silent ho,
      h.orderly htr⟩⟩

lemma same_append (h : ∀ o ∈ os, Silent a r o) : Same a r tr (os ++ tr) := by
  induction os with
  | nil => exact same_refl
  | cons o os ih =>
    have hos := ih fun o ho => h o (List.mem_cons_of_mem _ ho)
    exact hos.cons (h o List.mem_cons_self)

lemma silent_of_thread (h : o.ofThread t) : Silent a r o := by
  cases o <;> trivial

end History

/-! ## What a change does to a stream -/

section Stream

variable {e : Event} {D₀ D D' : Daemon} {m m' : Moment} {a r : Addr}

/-- The data of the stream of `r` and `a`, whether it is open, being taken apart or gone. -/
structure Carried (a r : Addr) (m : Moment) : Prop where
  near : a < m.d.nextAddr
  far : r < m.d.nextAddr
  isFd : ∀ s, m.d.sockets a = some s → s.ops.isFd = true
  /-- As long as the remote socket exists, all that has been read has been sent. -/
  whole : ∀ q, m.d.sockets r = some q → q.ops = .remote ∧
    readBy a m.d.trace = (payloads r m.d.trace).flatten ∧ (r ∉ m.orphans → q.peer = some a)
  sound : (payloads r m.d.trace).flatten <+: readBy a m.d.trace
  finished : ended r m.d.trace = true → r ∈ m.orphans ∨ m.d.sockets r = none
  orderly : Always (Orderly a r) m.d.trace

/-- What a change has to do to the history; the sockets take care of themselves. -/
lemma Carried.advance (h : Carried a r m) (hages : Ages m m')
    (hN : m.d.nextAddr ≤ m'.d.nextAddr)
    (hwhole : ∀ q, m.d.sockets r = some q →
      readBy a m'.d.trace = (payloads r m'.d.trace).flatten)
    (hsound : (payloads r m'.d.trace).flatten <+: readBy a m'.d.trace)
    (hover : ended r m'.d.trace = true → ended r m.d.trace = true ∨ r ∈ m'.orphans)
    (horderly : Always (Orderly a r) m'.d.trace) : Carried a r m' := by
  refine ⟨h.near.trans_le hN, h.far.trans_le hN, fun s hs => ?_, fun q hq => ?_, hsound,
    fun hend => ?_, horderly⟩
  · obtain ⟨z, hz, hold⟩ := hages a s h.near hs
    rw [hold.isFd]
    exact h.isFd z hz
  · obtain ⟨z, hz, hold⟩ := hages r q h.far hq
    obtain ⟨hrem, -, hpeer⟩ := h.whole z hz
    refine ⟨hold.remote.mpr hrem, hwhole z hz, fun hX => ?_⟩
    rw [(hold.same hrem hX).1]
    exact hpeer fun hno => hX (hold.orphan hrem hno)
  · rw [Option.eq_none_iff_forall_ne_some, or_iff_not_imp_left]
    intro hX q hq
    obtain ⟨z, hz, hold⟩ := hages r q h.far hq
    rcases hover hend with hend | hno
    · rcases h.finished hend with hno | hnone
      · exact hX (hold.orphan (h.whole z hz).1 hno)
      · cases hnone.symm.trans hz
    · exact hX hno

lemma Carried.same (h : Carried a r m) (hages : Ages m m') (hN : m.d.nextAddr ≤ m'.d.nextAddr)
    (hsame : Same a r m.d.trace m'.d.trace) : Carried a r m' := by
  refine h.advance hages hN (fun q hq => ?_) ?_ (fun hend => .inl ?_) (hsame.orderly h.orderly)
  · rw [hsame.read, hsame.sent]
    exact (h.whole q hq).2.1
  · rw [hsame.read, hsame.sent]
    exact h.sound
  · rw [← hsame.ended]
    exact hend

/-- A socket with the peer `r` is the one at `a`. -/
lemma Carried.eq_of_peer (h : Carried a r m) (hwf : Wf m) {b : Addr} {s : Asocket}
    (hb : b ∉ m.orphans) (hs : m.d.sockets b = some s) (hp : s.peer = some r) : b = a := by
  obtain ⟨hr, q, hq, hback, -⟩ := hwf.peers.paired b s r hb hs hp
  have hpeer := (h.whole q hq).2.2 hr
  rw [hback, Option.some.injEq] at hpeer
  exact hpeer

/-- The socket at `a` has the peer `r` as long as nobody takes the stream apart. -/
lemma Carried.peer (h : Carried a r m) (hwf : Wf m) {s q : Asocket} (hr : r ∉ m.orphans)
    (hs : m.d.sockets a = some s) (hq : m.d.sockets r = some q) : s.peer = some r := by
  obtain ⟨-, z, hz, hback, -⟩ := hwf.peers.paired r q a hr hq ((h.whole q hq).2.2 hr)
  cases hs.symm.trans hz
  exact hback

/-- What is read while the stream is open and goes to no stream is nothing. -/
lemma Carried.note (h : Carried a r m) (hwf : Wf m) {o : Obs} (ho : Noted m o) :
    Carried a r { m with d := m.d.emit o } := by
  have hages : Ages m { m with d := m.d.emit o } := ages_of_eq rfl subset_rfl
  cases o with
  | read b bs =>
    obtain ⟨hX, s, hs, hbs⟩ := ho
    by_cases hba : b = a
    · subst hba
      have hgrow : readBy b (m.d.emit (.read b bs)).trace = readBy b m.d.trace ++ bs := readBy_read
      refine h.advance hages le_rfl (fun q hq => ?_) ?_ .inl
        (always_cons.mpr ⟨trivial, h.orderly⟩)
      · have hr : r ∉ m.orphans := by
          rw [hX]
          exact Set.notMem_empty r
        obtain ⟨hrem, hwhole, -⟩ := h.whole q hq
        have hnil : bs = [] := hbs.resolve_right fun hno =>
          hno r q (h.peer hwf hr hs hq) hq hrem
        rw [hgrow, hnil, List.append_nil]
        exact hwhole
      · rw [hgrow]
        exact h.sound.trans (List.prefix_append _ _)
    · exact h.same hages le_rfl (same_refl.cons fun heq => absurd heq hba)
  | sent => exact ho.elim
  | _ => exact h.same hages le_rfl (same_refl.cons trivial)

/-- A packet that is no `A_WRTE`; an `A_CLSE` on behalf of `r` is sent when the stream has been
taken apart. -/
lemma Carried.send (h : Carried a r m) (hages : Ages m m')
    (hN : m.d.nextAddr ≤ m'.d.nextAddr) (hX : r ∈ m.orphans → r ∈ m'.orphans) {t : TAddr}
    {via : Option Addr} {p : Apacket}
    (htrace : m'.d.trace = .sent t via p :: m.d.trace) (hcmd : p.msg.command ≠ aWrte)
    (hclse : p.msg.command = aClse → via = some r →
      r ∈ m.orphans ∧ (m.d.sockets r).isSome) : Carried a r m' := by
  by_cases hlast : via = some r ∧ p.msg.command = aClse
  · obtain ⟨hvia, hc⟩ := hlast
    obtain ⟨hr, hlive⟩ := hclse hc hvia
    obtain ⟨q, hq⟩ := Option.isSome_iff_exists.mp hlive
    have hread : readBy a m'.d.trace = readBy a m.d.trace := by rw [htrace]; rfl
    have hsent : payloads r m'.d.trace = payloads r m.d.trace := by
      rw [htrace]
      simp [payloads, hcmd]
    refine h.advance hages hN (fun q hq => ?_) ?_ (fun _ => .inr (hX hr)) ?_
    · rw [hread, hsent]
      exact (h.whole q hq).2.1
    · rw [hread, hsent]
      exact h.sound
    · rw [htrace]
      exact always_cons.mpr ⟨fun _ => ⟨fun hno => absurd hno hcmd, fun _ => (h.whole q hq).2.1⟩,
        h.orderly⟩
  · refine h.same hages hN ?_
    rw [htrace]
    exact same_refl.cons fun hvia => ⟨hcmd, fun hc => hlast ⟨hvia, hc⟩⟩

/-- The bytes just read are sent. -/
lemma Carried.wrte (h : Carried a r m) (hwf : Wf m) (hages : Ages m m')
    (hN : m.d.nextAddr ≤ m'.d.nextAddr) {b r' : Addr} {s q : Asocket} {t : TAddr} {p : Apacket}
    (hX : m.orphans = ∅) (hs : m.d.sockets b = some s) (hp : s.peer = some r')
    (hq : m.d.sockets r' = some q) (hcmd : p.msg.command = aWrte)
    (hbytes : p.payload ≠ [] ∧ p.payload.length ≤ maxPayload)
    (htrace : m'.d.trace = .sent t (some r') p :: .read b p.payload :: m.d.trace) :
    Carried a r m' := by
  have hempty : ∀ c, c ∉ m.orphans := fun c => by
    rw [hX]
    exact Set.notMem_empty c
  by_cases hr : r' = r
  · subst hr
    obtain rfl := h.eq_of_peer hwf (hempty b) hs hp
    have hread : readBy b m'.d.trace = readBy b m.d.trace ++ p.payload := by
      rw [htrace]
      exact readBy_read
    have hsent : payloads r' m'.d.trace = payloads r' m.d.trace ++ [p.payload] := by
      rw [htrace, payloads_sent hcmd]
      rfl
    have hopen : ended r' m.d.trace = false := by
      rw [Bool.eq_false_iff]
      intro hend
      rcases h.finished hend with hno | hno
      · exact hempty r' hno
      · cases hno.symm.trans hq
    have hends : ended r' m'.d.trace = ended r' m.d.trace := by
      rw [htrace]
      simp [ended, hcmd, aWrte, aClse]
    have hflat : readBy b m'.d.trace = (payloads r' m'.d.trace).flatten := by
      rw [hread, hsent, List.flatten_append, List.flatten_singleton, (h.whole q hq).2.1]
    refine h.advance hages hN (fun _ _ => hflat) ?_ (fun hend => .inl (hends ▸ hend)) ?_
    · exact hflat ▸ List.prefix_rfl
    · rw [htrace, always_cons, always_cons]
      refine ⟨fun _ => ⟨fun _ => ⟨hbytes.1, hbytes.2, hopen⟩, fun hno => ?_⟩, trivial, h.orderly⟩
      rw [hcmd] at hno
      cases hno
  · have hother : Same a r (.read b p.payload :: m.d.trace) m'.d.trace := by
      rw [htrace]
      refine same_refl.cons fun hvia => ?_
      rw [Option.some.injEq] at hvia
      exact absurd hvia hr
    by_cases hba : b = a
    · subst hba
      have hdead : ∀ z, m.d.sockets r ≠ some z := by
        intro z hz
        have hpeer := h.peer hwf (hempty r) hs hz
        rw [hp, Option.some.injEq] at hpeer
        exact hr hpeer
      refine h.advance hages hN (fun z hz => absurd hz (hdead z)) ?_ (fun hend => .inl ?_)
        (hother.orderly (always_cons.mpr ⟨trivial, h.orderly⟩))
      · rw [hother.read, hother.sent, readBy_read]
        exact h.sound.trans (List.prefix_append _ _)
      · rw [← hend, hother.ended]
        rfl
    · refine h.same hages hN ?_
      have hread : Same a r m.d.trace (.read b p.payload :: m.d.trace) :=
        same_refl.cons fun hno => absurd hno hba
      exact ⟨hother.read.trans hread.read, hother.sent.trans hread.sent,
        hother.ended.trans hread.ended, fun htr => hother.orderly (hread.orderly htr)⟩

/-- Every change keeps the data of a stream together. -/
theorem carried_effect (he : Effect e D₀ m m') (hwf : Wf m) (h : Carried a r m) :
    Carried a r m' := by
  have hages := he.ages hwf
  have hN := StreamIds.nextAddr_le he
  have hkept : ∀ {b r' : Addr} {s : Asocket}, b ∉ m.orphans → m.d.sockets b = some s →
      s.peer = some r' → s.ops.isFd = false → r' ≠ r := by
    rintro b r' s hb hs hp hkind rfl
    obtain rfl := h.eq_of_peer hwf hb hs hp
    rw [h.isFd s hs] at hkind
    cases hkind
  have hother : ∀ {t : TAddr} {r' : Addr} {p : Apacket} {os : List Obs}, r' ≠ r →
      Same a r os (.sent t (some r') p :: os) := by
    intro t r' p os hr
    refine same_refl.cons fun hno => ?_
    rw [Option.some.injEq] at hno
    exact absurd hno hr
  cases he
  case note o ho => exact h.note hwf ho
  case send via p u x hx hmay hopen habout hcmd hsync =>
    refine h.send hages hN id rfl hcmd fun hc hvia => ?_
    subst hvia
    obtain ⟨hr, ⟨q, hq, -⟩, -⟩ := habout
    exact ⟨hr, Option.isSome_iff_exists.mpr ⟨q, hq⟩⟩
  case okay b r' s q p u x hb hs hq hp hr hx hmay hopen howed hcmd hid hdest =>
    refine h.send hages hN id rfl ?_ fun hno => ?_
    · rw [hcmd]
      decide
    · rw [hcmd] at hno
      cases hno
  case wrteRead b r' s q p u x ev L hb hs hops hp hto hin hset hev hread hwrite hevents hsub hbytes
      hX =>
    exact h.wrte hwf hages hN hX hs hp hto.live hto.command hbytes rfl
  case wrteJdwp b r' s q p u x hb hs hops hp hto hpass =>
    exact h.same hages hN (hother (hkept hb hs hp (by rw [hops]; rfl)))
  case wrteTracker b r' s q p u x hb hs hops hp hto hneed =>
    exact h.same hages hN (hother (hkept hb hs hp (by rw [hops]; rfl)))
  case pair b s id u x hs hp hclosing hl hin hnew hx hserve hon opened hopened =>
    refine h.same hages hN ?_
    cases opened with
    | true => exact Same.cons (Same.cons same_refl trivial) trivial
    | false => exact same_refl.cons trivial
  case unplug u x rest L hreg hx hrem hsame hL own own' =>
    obtain ⟨os, htrace, hos⟩ := unplug_trace own own'
      (has (m.d.loop.mem (.transport u)).state fdeActive) m.d.trace
    refine h.same hages hN ?_
    show Same a r m.d.trace (_ :: (_ ++ _))
    rw [htrace]
    refine same_append fun o ho => ?_
    rcases hos o ho with ⟨d, i, b, rfl⟩ | rfl <;> trivial
  case output u x y L R os n hidle hx hact hstep =>
    exact h.same hages hN (same_append fun o ho => silent_of_thread (hstep.ofThread ho))
  case input u x y L R os n hidle hx hstart hstep =>
    exact h.same hages hN (same_append fun o ho => silent_of_thread (hstep.ofThread ho))
  all_goals first
    | exact h.same hages hN same_refl
    | exact h.same hages hN (same_refl.cons trivial)

/-! ## From the start -/

/-- What an observation tells about the sockets. -/
def Tells (D₀ : Daemon) (m m' : Moment) : Obs → Prop
  | .read a _ => (m.d.sockets a).isSome
  | .sent _ via _ => ∀ r, via = some r → (m.d.sockets r).isSome
  | .opened r a => r = m.d.nextAddr ∧ m'.d.nextAddr = m.d.nextAddr + 1 ∧
      (∃ s, m.d.sockets a = some s ∧ Fresh D₀ m a s) ∧
      (∃ q, m'.d.sockets r = some q ∧ q.ops = .remote ∧ q.peer = some a) ∧
      ∃ l rid t, m'.d.trace = .opened r a :: .stream r a l rid t :: m.d.trace
  | _ => True

lemma tells_of_thread {o : Obs} {t : TAddr} (h : o.ofThread t) : Tells D₀ m m' o := by
  cases o <;> trivial

lemma tells_cons {o x : Obs} {tr : List Obs} (h : o ∈ x :: tr) (hx : Tells D₀ m m' x) :
    o ∈ tr ∨ Tells D₀ m m' o := by
  rcases List.mem_cons.mp h with rfl | h
  · exact .inr hx
  · exact .inl h

lemma tells_append {o : Obs} {os tr : List Obs} (h : o ∈ os ++ tr)
    (hos : ∀ o ∈ os, Tells D₀ m m' o) : o ∈ tr ∨ Tells D₀ m m' o :=
  (List.mem_append.mp h).symm.imp_right (hos o)

lemma tells (he : Effect e D₀ m m') (hwf : Wf m) {o : Obs} (h : o ∈ m'.d.trace) :
    o ∈ m.d.trace ∨ Tells D₀ m m' o := by
  have hsome : ∀ {b : Addr} {s : Asocket}, m.d.sockets b = some s → (m.d.sockets b).isSome :=
    fun hs => Option.isSome_iff_exists.mpr ⟨_, hs⟩
  have hvia : ∀ {r' : Addr} {q : Asocket}, m.d.sockets r' = some q →
      ∀ r'', some r' = some r'' → (m.d.sockets r'').isSome := by
    rintro r' q hq r'' heq
    exact Option.some.inj heq ▸ hsome hq
  cases he
  case note x hx =>
    refine tells_cons h ?_
    cases x with
    | read b bs =>
      obtain ⟨-, s, hs, -⟩ := hx
      exact hsome hs
    | sent | opened => exact hx.elim
    | _ => trivial
  case send via p u x hx hmay hopen habout hcmd hsync =>
    refine tells_cons h ?_
    rintro r' rfl
    obtain ⟨-, ⟨q, hq, -⟩, -⟩ := habout
    exact hsome hq
  case okay b r' s q p u x hb hs hq hp hr hx hmay hopen howed hcmd hid hdest =>
    exact tells_cons h (hvia hq)
  case wrteRead b r' s q p u x ev L hb hs hops hp hto hin hset hev hread hwrite hevents hsub hbytes
      hX =>
    rcases tells_cons h (hvia hto.live) with h | htold
    · exact tells_cons h (hsome hs)
    · exact .inr htold
  case wrteJdwp b r' s q p u x hb hs hops hp hto hpass => exact tells_cons h (hvia hto.live)
  case wrteTracker b r' s q p u x hb hs hops hp hto hneed => exact tells_cons h (hvia hto.live)
  case pair b s id u x hs hp hclosing hl hin hnew hx hserve hon opened hopened =>
    have hne : m.d.nextAddr ≠ b := Nat.ne_of_gt (hwf.peers.fresh b s hs)
    have hlive : update (update m.d.sockets m.d.nextAddr (some
          { ops := .remote, id := id, transport := some u, peer := some b }))
        b (some { s with peer := some m.d.nextAddr }) m.d.nextAddr =
        some { ops := .remote, id := id, transport := some u, peer := some b } := by
      rw [update_of_ne hne, update_self]
    cases opened with
    | true =>
      rcases List.mem_cons.mp h with rfl | h
      · exact .inr ⟨rfl, rfl, ⟨s, hs, hopened rfl⟩, ⟨_, hlive, rfl, rfl⟩, s.id, id, u, rfl⟩
      · exact tells_cons h trivial
    | false => exact tells_cons h trivial
  case unplug u x rest L hreg hx hrem hsame hL own own' =>
    obtain ⟨os, htrace, hos⟩ := unplug_trace own own'
      (has (m.d.loop.mem (.transport u)).state fdeActive) m.d.trace
    change o ∈ _ :: (_ ++ _) at h
    rw [htrace] at h
    refine tells_append h fun o ho => ?_
    rcases hos o ho with ⟨d, i, b, rfl⟩ | rfl <;> trivial
  case output u x y L R os n hidle hx hact hstep =>
    exact tells_append h fun o ho => tells_of_thread (hstep.ofThread ho)
  case input u x y L R os n hidle hx hstart hstep =>
    exact tells_append h fun o ho => tells_of_thread (hstep.ofThread ho)
  all_goals first
    | exact .inl h
    | exact tells_cons h trivial

/-- A stream from before its sockets exist. -/
structure Before (a r : Addr) (m : Moment) : Prop where
  unread : m.d.nextAddr ≤ a → ∀ bs, .read a bs ∉ m.d.trace
  unsent : m.d.nextAddr ≤ r → ∀ t p, .sent t (some r) p ∉ m.d.trace
  born : .opened r a ∈ m.d.trace → a < m.d.nextAddr ∧ r < m.d.nextAddr
  carried : .opened r a ∈ m.d.trace → ∀ s, m.d.sockets a = some s → s.ops.isFd = true →
    Carried a r m

/-- The stream that `A_OPEN` makes carries nothing yet. -/
lemma carried_of_opened (h : Before a r m) (hstart : Before a r { d := D₀ }) (hwf : Wf m)
    (hopened : Tells D₀ m m' (.opened r a)) {s : Asocket} (hs : m'.d.sockets a = some s)
    (hfd : s.ops.isFd = true) : Carried a r m' := by
  obtain ⟨hr, hN, ⟨z, hz, hfresh⟩, ⟨q, hq, hrem, hpeer⟩, l, rid, t, htrace⟩ := hopened
  obtain ⟨u, p, hreceived⟩ := hfresh.trace
  have ha : a < m'.d.nextAddr := hN ▸ Nat.lt_succ_of_lt (hwf.peers.fresh a z hz)
  have hsilent : ∀ o ∈ m'.d.trace, Silent a r o := by
    intro o ho
    have hsent : ∀ t p, o ≠ .sent t (some r) p := by
      rintro t p rfl
      rw [htrace] at ho
      have ho := (List.mem_cons.mp ho).resolve_left Obs.noConfusion
      have ho := (List.mem_cons.mp ho).resolve_left Obs.noConfusion
      exact h.unsent hr.ge t p ho
    have hread : ∀ bs, o ≠ .read a bs := by
      rintro bs rfl
      rw [htrace, hreceived] at ho
      have ho := (List.mem_cons.mp ho).resolve_left Obs.noConfusion
      have ho := (List.mem_cons.mp ho).resolve_left Obs.noConfusion
      have ho := (List.mem_cons.mp ho).resolve_left Obs.noConfusion
      exact hstart.unread hfresh.addr bs ho
    cases o with
    | read b bs =>
      rintro rfl
      exact absurd rfl (hread bs)
    | sent t via p =>
      rintro rfl
      exact absurd rfl (hsent t p)
    | _ => trivial
  have hsame : Same a r [] m'.d.trace := by
    have happend := @same_append a r _ [] hsilent
    rwa [List.append_nil] at happend
  have hread : readBy a m'.d.trace = [] := hsame.read
  have hsent : payloads r m'.d.trace = [] := hsame.sent
  have hend : ended r m'.d.trace = false := hsame.ended
  refine ⟨ha, by rw [hN, hr]; exact Nat.lt_succ_self _, fun y hy => ?_, fun y hy => ?_, ?_,
    fun hno => ?_, hsame.orderly always_nil⟩
  · cases hs.symm.trans hy
    exact hfd
  · cases hq.symm.trans hy
    refine ⟨hrem, ?_, fun _ => hpeer⟩
    rw [hread, hsent]
    rfl
  · rw [hsent]
    exact List.nil_prefix
  · rw [hend] at hno
    cases hno

theorem before_effect (he : Effect e D₀ m m') (hwf : Wf m) (hstart : Before a r { d := D₀ })
    (h : Before a r m) : Before a r m' := by
  have hN := StreamIds.nextAddr_le he
  have hlt : ∀ {b : Addr}, (m.d.sockets b).isSome → b < m.d.nextAddr := by
    intro b hb
    obtain ⟨s, hs⟩ := Option.isSome_iff_exists.mp hb
    exact hwf.peers.fresh b s hs
  constructor
  · intro hle bs hbs
    rcases tells he hwf hbs with hbs | hlive
    · exact h.unread (hN.trans hle) bs hbs
    · exact absurd (hlt hlive) (Nat.not_lt.mpr (hN.trans hle))
  · intro hle t p hp
    rcases tells he hwf hp with hp | hlive
    · exact h.unsent (hN.trans hle) t p hp
    · exact absurd (hlt (hlive r rfl)) (Nat.not_lt.mpr (hN.trans hle))
  · intro hopened
    rcases tells he hwf hopened with hopened | ⟨hr, hnext, ⟨s, hs, -⟩, -⟩
    · obtain ⟨ha, hr⟩ := h.born hopened
      exact ⟨ha.trans_le hN, hr.trans_le hN⟩
    · rw [hnext, hr]
      exact ⟨Nat.lt_succ_of_lt (hwf.peers.fresh a s hs), Nat.lt_succ_self _⟩
  · intro hopened s hs hfd
    rcases tells he hwf hopened with hold | hnew
    · obtain ⟨z, hz, haged⟩ := he.ages hwf a s (h.born hold).1 hs
      exact carried_effect he hwf (h.carried hold z hz (haged.isFd ▸ hfd))
    · exact carried_of_opened h hstart hwf hnew hs hfd

/-- In every run, from the `A_OPEN` on: while the stream is open, what has been read from the
descriptor of the service and what has been sent are the same bytes; all of it is sent before the
`A_CLSE`, and nothing after it. -/
theorem bytes_delivered {s : Asocket} {es : List Event} (h : Reachable D₀)
    (hs : D₀.sockets a = some s) (hfd : s.ops.isFd = true) (hopened : .opened r a ∈ D₀.trace)
    (hrun : run Daemon.step es D₀ = .ok D) : Delivered a r D := by
  have hbefore : Kept (fun _ _ => True) (Before a r) :=
    fun _ _ _ _ _ _ hD _ hwf hb he => before_effect he hwf hD hb
  have hinit : Before a r { d := D₀ } := by
    refine hbefore.reachable (fun config fds inUse D hmain => ?_) h
    obtain ⟨L, O, I, rfl⟩ := adbMain_eq hmain
    exact ⟨fun _ _ => List.not_mem_nil, fun _ _ _ => List.not_mem_nil,
      fun hno => absurd hno List.not_mem_nil, fun hno => absurd hno List.not_mem_nil⟩
  have hkept : Kept (fun _ _ => True) (Carried a r) :=
    fun _ _ _ _ _ _ _ _ hwf hc he => carried_effect he hwf hc
  obtain ⟨hwf, hD⟩ := hkept.run h.wf (hinit.carried hopened s hs hfd) along_true hrun
  refine ⟨fun z hz hp => ?_, hD.sound, hD.orderly⟩
  obtain ⟨-, q, hq, -⟩ := hwf.peers.paired a z r (Set.notMem_empty a) hz hp
  exact (hD.whole q hq).2.1

end Stream

/-! ## Two runs -/

/-- The callback of the descriptor 13, which reads `hi` and `!`. -/
def speaks : List Event :=
  [⟨.epollWait [(13, ⟨true, false, false⟩)], {}⟩,
    ⟨.dispatch, { reads := [.data [104, 105], .intr, .data [33], .again] }⟩]

/-- The theorem for a shell that says `hi!`. -/
theorem bytes_delivered_shell : ∃ D₀ D s, Reachable D₀ ∧ D₀.sockets 0 = some s ∧
    s.ops.isFd = true ∧ .opened 1 0 ∈ D₀.trace ∧ run Daemon.step speaks D₀ = .ok D ∧
    payloads 1 D.trace = [[104, 105, 33]] ∧ Delivered 0 1 D := by
  obtain ⟨D₀, hD₀, hshows⟩ := @exists_reachable
    (Option Bool × Bool × Option (List (List UInt8))) unlocked [3, 4, 6, 7, 8, 9] (fun _ => false)
    openShell
    (fun D => ((D.sockets 0).map fun s => s.ops.isFd, decide (.opened 1 0 ∈ D.trace),
      (run Daemon.step speaks D).toOption.map fun D => payloads 1 D.trace))
    (some true, true, some [[104, 105, 33]]) (by decide +kernel)
  rw [Prod.mk.injEq, Prod.mk.injEq, decide_eq_true_eq] at hshows
  obtain ⟨hs, hopened, hrun⟩ := hshows
  obtain ⟨s, hs, hfd⟩ := Option.map_eq_some_iff.mp hs
  obtain ⟨D, hrun, hsent⟩ := Option.map_eq_some_iff.mp hrun
  have hok : run Daemon.step speaks D₀ = .ok D := by
    cases hx : run Daemon.step speaks D₀ with
    | error r =>
      rw [hx] at hrun
      cases hrun
    | ok D' =>
      rw [hx] at hrun
      exact congrArg _ (Option.some.inj hrun)
  exact ⟨D₀, D, s, hD₀, hs, hfd, hopened, hok, hsent, bytes_delivered hD₀ hs hfd hopened hok⟩

/-- Since the stream of `r` and `a` was opened, nothing but `A_WRTE` has come in. -/
def heldOpen (a r : Addr) : List Obs → Bool
  | [] => false
  | .opened r' a' :: os => decide (r' = r ∧ a' = a) || heldOpen a r os
  | .received _ p :: os => decide (p.msg.command = aWrte) && heldOpen a r os
  | _ :: os => heldOpen a r os

/-- The shell does not take `hi` at once, and then not at all: the daemon closes the stream and
keeps the socket.  The shell has exited, and the forced read finds `y`, which goes nowhere. -/
def lastWords : List Event :=
  openShell ++ carry 0 11 (packetOf aWrte 7 1 [104, 105]) { writes := [.again] } ++
    [⟨.epollWait [(13, ⟨false, true, false⟩)], {}⟩, ⟨.dispatch, { writes := [.fail] }⟩,
      ⟨.epollWait [(9, ⟨true, false, false⟩)], {}⟩,
      ⟨.dispatch, { reads := [.data [13, 0, 0, 0], .data [121], .again] }⟩]

/-- What is read after the daemon has closed the stream is lost, though neither the host nor the
transport has closed it. -/
theorem last_words_lost : ∃ D s x, Reachable D ∧ .opened 1 0 ∈ D.trace ∧
    D.sockets 0 = some s ∧ s.ops.isFd = true ∧ heldOpen 0 1 D.trace = true ∧
    D.transports 0 = some x ∧ x.online = true ∧ x.input = .reading ∧
    readBy 0 D.trace ≠ (payloads 1 D.trace).flatten := by
  obtain ⟨D, hD, hshows⟩ := @exists_reachable (Bool × Option Bool × Option Bool × Bool) unlocked
    [3, 4, 6, 7, 8, 9] (fun _ => false) lastWords
    (fun D => (decide (Obs.opened 1 0 ∈ D.trace) && heldOpen 0 1 D.trace,
      (D.sockets 0).map fun s : Asocket => s.ops.isFd,
      (D.transports 0).map fun x : Atransport => x.online && decide (x.input = .reading),
      decide (readBy 0 D.trace ≠ (payloads 1 D.trace).flatten)))
    (true, some true, some true, true) (by decide +kernel)
  simp only [Prod.mk.injEq, Bool.and_eq_true, decide_eq_true_eq, Option.map_eq_some_iff] at hshows
  obtain ⟨⟨hopened, hheld⟩, ⟨s, hs, hfd⟩, ⟨x, hx, honline, hinput⟩, hlost⟩ := hshows
  exact ⟨D, s, x, hD, hopened, hs, hfd, hheld, hx, honline, hinput, hlost⟩

end Adbd.ServiceBytes
