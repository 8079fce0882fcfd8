import Mathlib.Logic.Function.Basic
import Adbd.Model.UsbFfs

/-!
# Successive USB transports and their endpoints (`usb_linux_client.c`)

The threads of a transport that has been kicked go on using the shared handle until they leave
their packet loops.  `output_thread` reads all the time; `input_thread` mostly waits for a packet,
and uses the handle only while it writes one.  So a transport that is kicked while nothing is
queued for its host does no harm, also if `usb_ffs_open_thread` opens the endpoints again before
its `input_thread` has heard of it.  But if they are opened while a thread of such a transport
reads or writes, or if its `input_thread` takes a packet afterwards, then the old transport talks
on the connection of the next one.
-/

namespace Adbd

namespace UsbIsolation

open Function Transition Usb

/-! ## The property and the condition -/

/-- No transport has used an endpoint that was opened after it had been kicked. -/
def Isolated (u : Usb) : Prop :=
  ∀ t g x k, (t, g) ∈ u.accesses → u.transports t = some x → x.kickedAt = some k → g < k

/-- `output_thread` is in its packet loop, or `input_thread` has a packet to write. -/
def Busy (x : UsbTransport) : Prop :=
  x.output.inLoop = true ∨ x.input.inLoop = true ∧ x.input ≠ .reading

/-- The next packet that `input_thread` takes is one that it writes. -/
def Takes (x : UsbTransport) : Prop :=
  x.input = .reading ∧ x.active = true ∧ ∃ p rest, x.toInput = p :: rest ∧ p.msg.command ≠ aSync

/-- The event opens an endpoint. -/
def Opens (e : UsbEvent) (u : Usb) : Prop :=
  ∃ n ok, e = .opener (some n) ok ∧
    (u.opener = .control ∨ u.opener = .bulkOut ∨ u.opener = .bulkIn)

/-- No thread of a kicked transport has anything to do with the endpoints of the next one. -/
structure Quiet (e : UsbEvent) (u : Usb) : Prop where
  /-- When an endpoint is opened, no thread of a kicked transport reads or writes. -/
  opening : Opens e u → ∀ t x, u.transports t = some x → x.kicked = true → ¬Busy x
  /-- When an endpoint has been opened since the kick, `input_thread` takes no packet to write. -/
  taking : ∀ t r x k, e = .input t r → u.transports t = some x → x.kickedAt = some k →
    k < u.opens → ¬Takes x

/-! ## What a step can do -/

/-- The changes of one step of a thread of `t`, which was `x` before. -/
inductive Move (t : ℕ) (u : Usb) (x : UsbTransport) : Usb → Prop
  | go (y : UsbTransport) (hk : y.kicked = x.kicked) (hat : y.kickedAt = x.kickedAt)
      (hbusy : Busy y → Busy x) : Move t u x (u.setTransport t y)
  | use (y : UsbTransport) (n g : ℕ) (hn : u.files n = some g) (hx : Busy x)
      (hk : y.kicked = x.kicked) (hat : y.kickedAt = x.kickedAt) :
    Move t u x (Usb.setTransport t y { u with accesses := (t, g) :: u.accesses })
  | lock (y : UsbTransport) (hk : y.kicked = true)
      (hat : y.kickedAt = if x.kicked then x.kickedAt else some u.opens)
      (hbusy : Busy y → Busy x) : Move t u x (u.setTransport t y)
  | kick (y : UsbTransport) (hk : y.kicked = x.kicked) (hat : y.kickedAt = x.kickedAt)
      (hbusy : Busy y → Busy x) : Move t u x (u.usbFfsKick.setTransport t y)

variable {u u' : Usb} {t : ℕ} {x y : UsbTransport}

lemma setTransport_eq_self (hx : u.transports t = some x) : u.setTransport t x = u := by
  rw [setTransport, ← hx, update_eq_self]

/-- A transfer inside the loop, after which the thread goes on as `y`. -/
lemma Move.of_access (n : Option ℕ) (hx : Busy x) (hk : y.kicked = x.kicked)
    (hat : y.kickedAt = x.kickedAt) : Move t u x ((u.access t n).setTransport t y) := by
  rw [access]
  split
  case h_1 g hg =>
    obtain ⟨k, -, hk'⟩ := Option.bind_eq_some_iff.mp hg
    exact .use y k g hk' hx hk hat
  case h_2 => exact .go y hk hat fun _ => hx

/-- A transfer that is not finished leaves the thread where it is. -/
lemma Move.of_more (n : Option ℕ) (hu : u.transports t = some x) (hx : Busy x) :
    Move t u x (u.access t n) := by
  have htr : (u.access t n).transports t = some x := by
    rw [access]
    split <;> exact hu
  rw [← setTransport_eq_self htr]
  exact .of_access n hx rfl rfl

lemma derefT_eq (h : u.derefT t = .ok x) : u.transports t = some x := by
  rw [derefT] at h
  split at h
  case h_1 y hy =>
    cases h
    exact hy
  case h_2 => cases h

lemma outputThread_move {r : Transfer} {m : Amessage} {data : List UInt8}
    (h : u.outputThread t r m data = .ok u') : ∃ x, u.transports t = some x ∧ Move t u x u' := by
  rw [outputThread, bind_eq_ok_iff] at h
  obtain ⟨x, hx, h⟩ := h
  have hx := derefT_eq hx
  refine ⟨x, hx, ?_⟩
  -- outside the loop the thread only kicks
  have hout : ∀ pc : UsbOutputPc, pc.inLoop = false →
      Busy { x with output := pc } → Busy x := by
    intro pc hpc hbusy
    rcases hbusy with hbusy | hbusy
    · exact absurd (hpc.symm.trans hbusy) (by decide)
    · exact .inr hbusy
  split at h
  case h_1 hpc =>
    cases h
    exact .go _ rfl rfl fun _ => .inl (by rw [hpc]; rfl)
  case h_2 hpc =>
    cases h
    exact .go _ rfl rfl fun _ => .inl (by rw [hpc]; rfl)
  case h_3 n hpc =>
    have hbusy : Busy x := .inl (by rw [hpc]; rfl)
    simp only at h
    split at h
    · cases h
      exact .of_more n hx hbusy
    · cases h
      exact .of_access n hbusy rfl rfl
    · split at h
      · cases h
        exact .of_access n hbusy rfl rfl
      split at h
      · cases h
        exact .of_access n hbusy rfl rfl
      · cases h
        exact .of_access n hbusy rfl rfl
  case h_4 m' hpc =>
    cases h
    exact .go _ rfl rfl fun _ => .inl (by rw [hpc]; rfl)
  case h_5 m' n hpc =>
    have hbusy : Busy x := .inl (by rw [hpc]; rfl)
    simp only at h
    split at h
    · cases h
      exact .of_more n hx hbusy
    · cases h
      exact .of_access n hbusy rfl rfl
    · cases h
      exact .of_access n hbusy rfl rfl
  case h_6 hpc =>
    cases h
    exact .go _ rfl rfl (hout _ (by split <;> rfl))
  case h_7 hpc =>
    cases h
    exact .lock _ rfl rfl (hout _ (by split <;> rfl))
  case h_8 hpc =>
    cases h
    exact .kick _ rfl rfl (hout _ rfl)
  case h_9 => cases h

/-- A step of `input_thread`, which may take a packet to write. -/
lemma inputThread_move {r : Transfer} (h : u.inputThread t r = .ok u') :
    ∃ x, u.transports t = some x ∧ (Move t u x u' ∨ Takes x ∧ ∃ y : UsbTransport,
      y.kicked = x.kicked ∧ y.kickedAt = x.kickedAt ∧ u' = u.setTransport t y) := by
  rw [inputThread, bind_eq_ok_iff] at h
  obtain ⟨x, hx, h⟩ := h
  have hx := derefT_eq hx
  refine ⟨x, hx, ?_⟩
  -- a thread that does not write is busy only where `output_thread` is
  have hout : ∀ y : UsbTransport, y.output = x.output →
      (y.input.inLoop = true → y.input = .reading) → Busy y → Busy x := by
    rintro y hy hidle (hbusy | ⟨hloop, hne⟩)
    · exact .inl (hy ▸ hbusy)
    · exact absurd (hidle hloop) hne
  split at h
  case h_1 hpc =>
    split at h
    · cases h
    case h_2 p rest hlist =>
      simp only at h
      split at h
      · split at h
        · cases h
          exact .inl (.go _ rfl rfl (hout _ rfl nofun))
        · cases h
          exact .inl (.go _ rfl rfl (hout _ rfl fun _ => hpc))
      case isFalse hsync =>
        split at h
        case isTrue hactive =>
          cases h
          exact .inr ⟨⟨hpc, hactive, p, rest, hlist, hsync⟩,
            { x with toInput := rest, input := .header p }, rfl, rfl, rfl⟩
        · cases h
          exact .inl (.go _ rfl rfl (hout _ rfl fun _ => hpc))
  case h_2 p hpc =>
    cases h
    exact .inl (.go _ rfl rfl fun _ => .inr (by rw [hpc]; exact ⟨rfl, nofun⟩))
  case h_3 p n hpc =>
    have hbusy : Busy x := .inr (by rw [hpc]; exact ⟨rfl, nofun⟩)
    simp only at h
    split at h
    · cases h
      exact .inl (.of_more n hx hbusy)
    · cases h
      exact .inl (.of_access n hbusy rfl rfl)
    · cases h
      exact .inl (.of_access n hbusy rfl rfl)
  case h_4 p hpc =>
    cases h
    exact .inl (.go _ rfl rfl fun _ => .inr (by rw [hpc]; exact ⟨rfl, nofun⟩))
  case h_5 p n hpc =>
    have hbusy : Busy x := .inr (by rw [hpc]; exact ⟨rfl, nofun⟩)
    simp only at h
    split at h
    · cases h
      exact .inl (.of_more n hx hbusy)
    · cases h
      exact .inl (.of_access n hbusy rfl rfl)
  case h_6 hpc =>
    cases h
    refine .inl (.go _ rfl rfl (hout _ rfl fun hloop => ?_))
    simp only at hloop
    split at hloop <;> cases hloop
  case h_7 hpc =>
    cases h
    refine .inl (.lock _ rfl rfl (hout _ rfl fun hloop => ?_))
    simp only at hloop
    split at hloop <;> cases hloop
  case h_8 hpc =>
    cases h
    exact .inl (.kick _ rfl rfl (hout _ rfl nofun))
  case h_9 => cases h

/-- Closing a descriptor opens none. -/
lemma closeFile_work (n : Option ℕ) (u : Usb) : ∃ F, u.closeFile n = { u with files := F } ∧
    ∀ k g, F k = some g → u.files k = some g := by
  cases n with
  | none => exact ⟨u.files, rfl, fun _ _ h => h⟩
  | some j =>
    refine ⟨update u.files j none, rfl, fun k g h => ?_⟩
    by_cases hk : k = j
    · subst hk
      simp at h
    · simpa [update_of_ne hk] using h

lemma closeFiles_work (n k j : Option ℕ) (u : Usb) : ∃ F,
    ((u.closeFile n).closeFile k).closeFile j = { u with files := F } ∧
    ∀ i g, F i = some g → u.files i = some g := by
  obtain ⟨F, hF, hsub⟩ := closeFile_work n u
  obtain ⟨G, hG, hsub'⟩ := closeFile_work k { u with files := F }
  obtain ⟨H, hH, hsub''⟩ := closeFile_work j { u with files := G }
  refine ⟨H, ?_, fun i g h => hsub i g (hsub' i g (hsub'' i g h))⟩
  rw [hF, hG, hH]

/-- What `usb_ffs_open_thread` can do: work on the handle, open an endpoint, or register. -/
inductive OpenerMove (e : UsbEvent) (u : Usb) : Usb → Prop
  | work (F : ℕ → Option ℕ) (h : UsbHandle) (pc : OpenerPc)
      (hF : ∀ n g, F n = some g → u.files n = some g) :
    OpenerMove e u { u with files := F, handle := h, opener := pc }
  | opened (n : ℕ) (h : UsbHandle) (pc : OpenerPc) (he : Opens e u) :
    OpenerMove e u { u with
      files := update u.files n (some u.opens)
      opens := u.opens + 1
      handle := h
      opener := pc }
  | registered (pc : OpenerPc) :
    OpenerMove e u { u with
      opener := pc
      transports := update u.transports u.nextTransport (some {})
      nextTransport := u.nextTransport + 1 }

lemma initFailed_move {e : UsbEvent} (h : UsbHandle) :
    OpenerMove e u (initFailed { u with handle := h }) := by
  obtain ⟨F, hF, hsub⟩ := closeFiles_work (positive h.bulkIn) (positive h.bulkOut)
    (positive h.control) { u with handle := h }
  rw [initFailed]
  simp only [hF]
  exact .work F _ _ hsub

lemma openThread_move {fd : Option ℕ} {ok : Bool} (h : u.openThread fd ok = .ok u') :
    OpenerMove (.opener fd ok) u u' := by
  have hopen : ∀ n (f : UsbHandle → UsbHandle) (pc : OpenerPc), fd = some n →
      u.opener = .control ∨ u.opener = .bulkOut ∨ u.opener = .bulkIn →
      (do
        let v ← u.openFile n
        pure { v with handle := f v.handle, opener := pc }) = .ok u' →
        OpenerMove (.opener fd ok) u u' := by
    intro n f pc hfd hpc h
    rw [openFile] at h
    split at h
    · cases h
    · cases h
      exact .opened n (f u.handle) pc ⟨n, ok, by rw [hfd], hpc⟩
  unfold openThread at h
  split at h
  · split at h
    · cases h
      exact .work u.files u.handle _ fun _ _ hn => hn
    · cases h
  case h_2 hpc =>
    split at h
    · cases h
      exact initFailed_move _
    case h_2 n => exact hopen n (fun f => { f with control := some n }) .describe rfl (.inl hpc) h
  case h_3 hpc =>
    cases h
    split
    · exact .work u.files u.handle _ fun _ _ hn => hn
    · exact initFailed_move u.handle
  case h_4 hpc =>
    split at h
    · cases h
      exact initFailed_move _
    case h_2 n =>
      exact hopen n (fun f => { f with bulkOut := some n }) .bulkIn rfl (.inr (.inl hpc)) h
  case h_5 hpc =>
    split at h
    · cases h
      exact initFailed_move _
    case h_2 n =>
      exact hopen n (fun f => { f with bulkIn := some n }) .register rfl (.inr (.inr hpc)) h
  case h_6 hpc =>
    cases h
    exact .registered _

/-! ## The invariant -/

/-- Openings are numbered, and the ones a kicked transport has used, or can still use in what it
reads or writes, came before it was kicked. -/
structure Inv (u : Usb) : Prop where
  files : ∀ n g, u.files n = some g → g < u.opens
  used : ∀ t g, (t, g) ∈ u.accesses → g < u.opens
  flag : ∀ t x, u.transports t = some x → x.kicked = x.kickedAt.isSome
  past : ∀ t x k, u.transports t = some x → x.kickedAt = some k → k ≤ u.opens
  loop : ∀ t x k, u.transports t = some x → x.kickedAt = some k → Busy x → k = u.opens
  fresh : ∀ t g, (t, g) ∈ u.accesses → t < u.nextTransport
  live : ∀ t x, u.transports t = some x → t < u.nextTransport
  isolated : Isolated u

/-- What a table holds after an assignment. -/
lemma eq_or_of_update {T : ℕ → Option UsbTransport} {s : ℕ} {z : UsbTransport}
    (h : update T t (some y) s = some z) : T s = some z ∨ s = t ∧ z = y := by
  by_cases hst : s = t
  · rw [hst, update_self, Option.some.injEq] at h
    exact .inr ⟨hst, h.symm⟩
  · rw [update_of_ne hst] at h
    exact .inl h

/-- A transport is replaced by one that is in order. -/
lemma Inv.replace (h : Inv u) (hx : u.transports t = some x)
    (hflag : y.kicked = y.kickedAt.isSome) (hpast : ∀ k, y.kickedAt = some k → k ≤ u.opens)
    (hloop : ∀ k, y.kickedAt = some k → Busy y → k = u.opens)
    (hown : ∀ g k, (t, g) ∈ u.accesses → y.kickedAt = some k → g < k) :
    Inv (u.setTransport t y) := by
  refine ⟨h.files, h.used, ?_, ?_, ?_, h.fresh, ?_, ?_⟩
  · intro s z hz
    rcases eq_or_of_update hz with hz | ⟨-, rfl⟩
    · exact h.flag s z hz
    · exact hflag
  · intro s z k hz hzk
    rcases eq_or_of_update hz with hz | ⟨-, rfl⟩
    · exact h.past s z k hz hzk
    · exact hpast k hzk
  · intro s z k hz hzk hzb
    rcases eq_or_of_update hz with hz | ⟨-, rfl⟩
    · exact h.loop s z k hz hzk hzb
    · exact hloop k hzk hzb
  · intro s z hz
    rcases eq_or_of_update hz with hz | ⟨rfl, -⟩
    · exact h.live s z hz
    · exact h.live s x hx
  · intro s g z k hg hz hzk
    rcases eq_or_of_update hz with hz | ⟨rfl, rfl⟩
    · exact h.isolated s g z k hg hz hzk
    · exact hown g k hg hzk

/-- A transport is replaced by one that was kicked at the same time. -/
lemma Inv.assign (h : Inv u) (hx : u.transports t = some x) (hk : y.kicked = x.kicked)
    (hat : y.kickedAt = x.kickedAt) (hloop : ∀ k, x.kickedAt = some k → Busy y → k = u.opens) :
    Inv (u.setTransport t y) := by
  refine h.replace hx ?_ ?_ ?_ ?_
  · rw [hk, hat]
    exact h.flag t x hx
  · exact fun k hyk => h.past t x k hx (hat ▸ hyk)
  · exact fun k hyk => hloop k (hat ▸ hyk)
  · exact fun g k hg hyk => h.isolated t g x k hg hx (hat ▸ hyk)

/-- The threads are no busier than before. -/
lemma Inv.setTransport (h : Inv u) (hx : u.transports t = some x) (hk : y.kicked = x.kicked)
    (hat : y.kickedAt = x.kickedAt) (hbusy : Busy y → Busy x) : Inv (u.setTransport t y) :=
  h.assign hx hk hat fun k hxk hy => h.loop t x k hx hxk (hbusy hy)

/-- `input_thread` takes a packet to write, and nothing has been opened since the kick. -/
lemma Inv.take (h : Inv u) (hx : u.transports t = some x) (hk : y.kicked = x.kicked)
    (hat : y.kickedAt = x.kickedAt) (hlate : ∀ k, x.kickedAt = some k → ¬k < u.opens) :
    Inv (u.setTransport t y) :=
  h.assign hx hk hat fun k hxk _ =>
    Nat.le_antisymm (h.past t x k hx hxk) (Nat.not_lt.mp (hlate k hxk))

/-- Setting the flag records how many endpoints have been opened so far. -/
lemma Inv.lock (h : Inv u) (hx : u.transports t = some x) (hk : y.kicked = true)
    (hat : y.kickedAt = if x.kicked then x.kickedAt else some u.opens)
    (hbusy : Busy y → Busy x) : Inv (u.setTransport t y) := by
  cases hkicked : x.kicked with
  | true =>
    rw [hkicked, if_pos rfl] at hat
    exact h.setTransport hx (hk.trans hkicked.symm) hat hbusy
  | false =>
    rw [hkicked] at hat
    have hat : y.kickedAt = some u.opens := hat
    have hopens : ∀ k, y.kickedAt = some k → k = u.opens := by
      intro k hyk
      rw [hat, Option.some.injEq] at hyk
      exact hyk.symm
    refine h.replace hx ?_ ?_ ?_ ?_
    · rw [hk, hat]
      rfl
    · exact fun k hyk => Nat.le_of_eq (hopens k hyk)
    · exact fun k hyk _ => hopens k hyk
    · intro g k hg hyk
      rw [hopens k hyk]
      exact h.used t g hg

/-- A transport that reads or writes uses an endpoint. -/
lemma Inv.use {n g : ℕ} (h : Inv u) (hx : u.transports t = some x)
    (hn : u.files n = some g) (hbusy : Busy x) :
    Inv { u with accesses := (t, g) :: u.accesses } := by
  have hg := h.files n g hn
  refine ⟨h.files, ?_, h.flag, h.past, h.loop, ?_, h.live, ?_⟩
  · intro s i hmem
    rcases List.mem_cons.mp hmem with heq | hmem
    · cases heq
      exact hg
    · exact h.used s i hmem
  · intro s i hmem
    rcases List.mem_cons.mp hmem with heq | hmem
    · cases heq
      exact h.live t x hx
    · exact h.fresh s i hmem
  · intro s i z k hmem hz hzk
    rcases List.mem_cons.mp hmem with heq | hmem
    · cases heq
      rw [hx, Option.some.injEq] at hz
      subst hz
      -- nothing has been opened since the kick
      rw [h.loop t x k hx hzk hbusy]
      exact hg
    · exact h.isolated s i z k hmem hz hzk

/-- Descriptors go away, or the handle changes. -/
lemma Inv.work {F : ℕ → Option ℕ} {f : UsbHandle} {pc : OpenerPc} (h : Inv u)
    (hF : ∀ n g, F n = some g → u.files n = some g) :
    Inv { u with files := F, handle := f, opener := pc } :=
  ⟨fun n g hn => h.files n g (hF n g hn), h.used, h.flag, h.past, h.loop, h.fresh, h.live,
    h.isolated⟩

lemma Inv.move (h : Inv u) (hx : u.transports t = some x) (hm : Move t u x u') : Inv u' := by
  cases hm with
  | go y hk hat hbusy => exact h.setTransport hx hk hat hbusy
  | use y n g hn hbusy hk hat => exact (h.use hx hn hbusy).setTransport hx hk hat fun _ => hbusy
  | lock y hk hat hbusy => exact h.lock hx hk hat hbusy
  | kick y hk hat hbusy =>
    obtain ⟨F, hF, hsub⟩ := closeFiles_work u.handle.control u.handle.bulkOut u.handle.bulkIn u
    rw [usbFfsKick, hF]
    exact (h.work hsub).setTransport hx hk hat hbusy

/-- An endpoint is opened while no kicked transport can use it. -/
lemma Inv.opened {n : ℕ} {f : UsbHandle} {pc : OpenerPc} (h : Inv u)
    (hquiet : ∀ t x, u.transports t = some x → x.kicked = true → ¬Busy x) :
    Inv { u with
      files := update u.files n (some u.opens)
      opens := u.opens + 1
      handle := f
      opener := pc } := by
  refine ⟨?_, ?_, h.flag, ?_, ?_, h.fresh, h.live, h.isolated⟩
  · intro k g hk
    have hk : update u.files n (some u.opens) k = some g := hk
    by_cases hkn : k = n
    · rw [hkn, update_self, Option.some.injEq] at hk
      show g < u.opens + 1
      omega
    · rw [update_of_ne hkn] at hk
      exact Nat.lt_succ_of_lt (h.files k g hk)
  · exact fun t g hg => Nat.lt_succ_of_lt (h.used t g hg)
  · exact fun t x k hx hk => Nat.le_succ_of_le (h.past t x k hx hk)
  · intro t x k hx hk hbusy
    refine absurd hbusy (hquiet t x hx ?_)
    rw [h.flag t x hx, hk]
    rfl

/-- A new transport has not been kicked and has used nothing. -/
lemma Inv.registered {pc : OpenerPc} (h : Inv u) :
    Inv { u with
      opener := pc
      transports := update u.transports u.nextTransport (some {})
      nextTransport := u.nextTransport + 1 } := by
  refine ⟨h.files, h.used, ?_, ?_, ?_, ?_, ?_, ?_⟩
  · intro s z hz
    rcases eq_or_of_update hz with hz | ⟨-, rfl⟩
    · exact h.flag s z hz
    · rfl
  · intro s z k hz hzk
    rcases eq_or_of_update hz with hz | ⟨-, rfl⟩
    · exact h.past s z k hz hzk
    · cases hzk
  · intro s z k hz hzk hzb
    rcases eq_or_of_update hz with hz | ⟨-, rfl⟩
    · exact h.loop s z k hz hzk hzb
    · cases hzk
  · exact fun s g hg => Nat.lt_succ_of_lt (h.fresh s g hg)
  · intro s z hz
    rcases eq_or_of_update hz with hz | ⟨rfl, -⟩
    · exact Nat.lt_succ_of_lt (h.live s z hz)
    · exact Nat.lt_succ_self _
  · intro s g z k hg hz hzk
    rcases eq_or_of_update hz with hz | ⟨-, rfl⟩
    · exact h.isolated s g z k hg hz hzk
    · cases hzk

/-- Every quiet step keeps the invariant. -/
lemma usbStep_inv {e : UsbEvent} (h : Inv u) (hquiet : Quiet e u)
    (hstep : usbStep e u = .ok u') : Inv u' := by
  cases e with
  | opener fd ok =>
    cases openThread_move hstep with
    | work F f pc hF => exact h.work hF
    | opened n f pc he => exact h.opened (hquiet.opening he)
    | registered pc => exact h.registered
  | output t r m data =>
    obtain ⟨x, hx, hm⟩ := outputThread_move hstep
    exact h.move hx hm
  | input t r =>
    obtain ⟨x, hx, hm | ⟨htakes, y, hk, hat, rfl⟩⟩ := inputThread_move hstep
    · exact h.move hx hm
    · exact h.take hx hk hat fun k hxk hlt => hquiet.taking t r x k rfl hx hxk hlt htakes
  | main t p =>
    rw [usbStep, mainSends, bind_eq_ok_iff] at hstep
    obtain ⟨x, hx, hstep⟩ := hstep
    cases hstep
    exact h.setTransport (derefT_eq hx) rfl rfl fun hb => hb

lemma inv_init : Inv {} := by
  refine ⟨?_, ?_, ?_, ?_, ?_, ?_, ?_, ?_⟩
  · exact fun n g hn => by cases hn
  · exact fun t g hg => by cases hg
  · exact fun t x hx => by cases hx
  · exact fun t x k hx => by cases hx
  · exact fun t x k hx => by cases hx
  · exact fun t g hg => by cases hg
  · exact fun t x hx => by cases hx
  · exact fun t g x k hg => by cases hg

/-- In every run in which no endpoint is opened while a thread of a kicked transport reads or
writes, and no `input_thread` of a kicked transport takes a packet to write once an endpoint has
been opened, no transport ever uses an endpoint opened after it was kicked. -/
theorem isolated_of_quiet {es : List UsbEvent} {u : Usb} (hquiet : Along usbStep Quiet es {})
    (hrun : run usbStep es {} = .ok u) : Isolated u := by
  exact (run_invariant (fun e s s' hs hC hstep => usbStep_inv hs hC hstep) inv_init hquiet
    hrun).isolated

/-! ## Runs -/

/-- A check for `Quiet` that can be run. -/
def quiet (e : UsbEvent) (u : Usb) : Bool :=
  match e with
  | .opener (some _) _ =>
    (List.range u.nextTransport).all fun t =>
      (u.transports t).all fun x =>
        !x.kicked || !(x.output.inLoop || x.input.inLoop && x.input ≠ .reading)
  | .input t _ =>
    (u.transports t).all fun x =>
      x.kickedAt.all fun k => u.opens ≤ k || !x.active || x.input ≠ .reading ||
        x.toInput.head?.all fun p => p.msg.command = aSync
  | _ => true

lemma quiet_sound {e : UsbEvent} (h : Inv u) (hc : quiet e u = true) : Quiet e u := by
  refine ⟨?_, ?_⟩
  · rintro ⟨n, ok, rfl, -⟩ t x hx hk hbusy
    rw [quiet, List.all_eq_true] at hc
    have hall := hc t (List.mem_range.mpr (h.live t x hx))
    rw [hx, Option.all_some, hk] at hall
    rcases hbusy with hb | ⟨hb, hne⟩
    · simp [hb] at hall
    · simp [hb, hne] at hall
  · rintro t r x k rfl hx hk hlt ⟨hpc, hactive, p, rest, hlist, hne⟩
    rw [quiet, hx, Option.all_some, hk, Option.all_some, hactive, hpc, hlist] at hc
    have hlate : u.opens ≤ k := by simpa [hne] using hc
    exact absurd hlt (Nat.not_lt.mpr hlate)

/-- The check made at every step of a run. -/
def quietRun : List UsbEvent → Usb → Bool
  | [], _ => true
  | e :: es, u => quiet e u &&
    match usbStep e u with
    | .ok u => quietRun es u
    | .error _ => true

lemma quietRun_sound {es : List UsbEvent} (h : Inv u) (hc : quietRun es u = true) :
    Along usbStep Quiet es u := by
  induction es generalizing u with
  | nil => trivial
  | cons e es ih =>
    rw [quietRun, Bool.and_eq_true] at hc
    have hq := quiet_sound h hc.1
    refine ⟨hq, fun v hv => ih (usbStep_inv h hq hv) ?_⟩
    have htail := hc.2
    rw [hv] at htail
    exact htail

/-- The endpoints are opened as 3, 4 and 5 and a transport is registered. -/
def openSession : List UsbEvent :=
  [.opener none true, .opener (some 3) true, .opener none true, .opener (some 4) true,
    .opener (some 5) true, .opener none true]

/-- The transport's threads come up: the token goes round, and a packet with data is queued. -/
def startSession : List UsbEvent :=
  [.output 0 .done {} [], .output 0 .done {} [],
    .main 0 { addr := 0, msg := { command := aSync, arg0 := 1, arg1 := 2 } }, .input 0 .done,
    .main 0
      { addr := 1
        msg := { command := aWrte, arg0 := 1, arg1 := 9, dataLength := 1 }
        data := [97] }]

/-- The cable is unplugged: the read fails and `output_thread` kicks the transport. -/
def unplug : List UsbEvent :=
  [.output 0 .failed {} [], .output 0 .failed {} [], .output 0 .failed {} [],
    .output 0 .failed {} []]

/-- `input_thread` writes the queued packet. -/
def flush : List UsbEvent := [.input 0 .done, .input 0 .done, .input 0 .done, .input 0 .done,
  .input 0 .done]

/-- The main loop answers the end of `output_thread`, and `input_thread` ends too. -/
def leave : List UsbEvent :=
  [.main 0 { addr := 2, msg := { command := aSync } }, .input 0 .done, .input 0 .done]

/-- An idle transport is unplugged: the endpoints are opened again while its `input_thread` still
waits, and it ends after that. -/
theorem isolated_of_quiet_unplugged : ∃ u,
    run usbStep (openSession ++ startSession ++ flush ++ unplug ++ openSession ++ leave) {} =
      .ok u ∧ Isolated u := by
  have hok : ∃ u, run usbStep
      (openSession ++ startSession ++ flush ++ unplug ++ openSession ++ leave) {} = .ok u :=
    ⟨_, rfl⟩
  obtain ⟨u, hu⟩ := hok
  refine ⟨u, hu, isolated_of_quiet (quietRun_sound inv_init ?_) hu⟩
  decide

/-- The endpoints are opened again while the old transport still has a packet to write. -/
theorem not_isolated_unplugged : ∃ u,
    run usbStep (openSession ++ startSession ++ unplug ++ openSession ++ flush) {} = .ok u ∧
    ¬Isolated u := by
  refine ⟨_, rfl, fun h => ?_⟩
  exact absurd (h 0 5 _ 3 (by decide) rfl rfl) (by decide)

end UsbIsolation

end Adbd
