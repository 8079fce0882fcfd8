import Adbd.Model.EventLoop
import Adbd.Model.FdeventSpec

/-!
# The pending queue

Between turns the links form a ring through exactly the `fdevent`s whose state word has
`FDE_PENDING`, each once, and an `fdevent` has the flag exactly when it has events.  Six
functions write the flag, the links or the events, and the shell-exit handler sets the flag
without enqueueing; each of them keeps the three in step.

What the callbacks see follows: one call for each batch, and none after `fdevent_remove`.
-/

namespace Adbd

open FlagWord

namespace EventLoop

variable {κ : Type} [DecidableEq κ]

open Loop

/-! ## What holds between turns -/

/-- The kernel and the table know installed `fdevent`s only. -/
structure Owned (L : Loop κ) : Prop where
  entry : ∀ n asked k, L.interest n = some (asked, k) →
    L.Installed k ∧ (L.mem k).fd = n ∧ asked = epollMask (L.mem k).state
  slot : ∀ n k, L.fdTable n = .fde k → L.Installed k ∧ (L.mem k).fd = n
  fill : ∀ n k, L.fill n ≠ .fde k

/-- Links, flags and events are in step. -/
structure Queued (R : Ring.Links κ) (L : Loop κ) : Prop where
  ring : Ring.Represents R L.listPending
  flag : ∀ k, k ∈ L.listPending ↔ has (L.mem k).state fdePending = true
  due : ∀ k, has (L.mem k).state fdePending = true ↔ (L.mem k).events ≠ 0#16
  active : ∀ k, has (L.mem k).state fdePending = true → L.Installed k

/-- The latest `fdevent_install` of `k` came after its latest `fdevent_remove`. -/
def Alive (k : κ) : List (Happening κ) → Prop :=
  History.Since (· = .installed k) (· = .removed k)

/-- The latest batch reported `k`, and `k` has not been removed since. -/
def Due (k : κ) : List (Happening κ) → Prop :=
  History.Since (fun x => ∃ ev, x = .reported k ev) fun x => x = .removed k ∨ x = .waited

/-- The latest batch has not had its callback for `k` yet. -/
def Uncalled (k : κ) (h : List (Happening κ)) : Prop :=
  ∀ events subscribed new old, h = new ++ .called k events subscribed false :: old →
    .waited ∈ new

/-- What has to have happened before: only installed `fdevent`s are reported, a callback is
called for an `fdevent` that its batch has reported and that has not been called or removed
since, and the shell-exit handler calls installed ones only. -/
def Orderly : Happening κ → List (Happening κ) → Prop
  | .reported k _, h => Alive k h
  | .called k _ _ false, h => Due k h ∧ Uncalled k h ∧ Alive k h
  | .called k _ _ true, h => Alive k h
  | _, _ => True

/-- The history is orderly, and knows what is installed and pending now. -/
structure Traced (h : List (Happening κ)) (L : Loop κ) : Prop where
  orderly : History.Always Orderly h
  alive : ∀ k, L.Installed k → Alive k h
  due : ∀ k, has (L.mem k).state fdePending = true → Due k h ∧ Uncalled k h

structure Inv (E : EventLoop κ) : Prop where
  owned : Owned E.loop
  queued : Queued E.links E.loop
  traced : Traced E.history E.loop

/-! ## Changes that the invariant does not see -/

omit [DecidableEq κ] in
/-- Rewriting structs, but not their descriptors, their activity or their event masks. -/
lemma Owned.congr {L L' : Loop κ} (h : Owned L)
    (hmem : ∀ k, L.Installed k → L'.Installed k ∧ (L'.mem k).fd = (L.mem k).fd ∧
      epollMask (L'.mem k).state = epollMask (L.mem k).state)
    (hentry : ∀ n e, L'.interest n = some e → L.interest n = some e)
    (hslot : ∀ n k, L'.fdTable n = .fde k → L.fdTable n = .fde k)
    (hfill : L'.fill = L.fill) : Owned L' := by
  refine ⟨?_, ?_, ?_⟩
  · intro n asked k he
    obtain ⟨hk, hn, hasked⟩ := h.entry n asked k (hentry n _ he)
    obtain ⟨hk', hfd, hmask⟩ := hmem k hk
    exact ⟨hk', hfd.trans hn, hasked.trans hmask.symm⟩
  · intro n k hs
    obtain ⟨hk, hn⟩ := h.slot n k (hslot n k hs)
    obtain ⟨hk', hfd, -⟩ := hmem k hk
    exact ⟨hk', hfd.trans hn⟩
  · intro n k
    rw [hfill]
    exact h.fill n k

omit [DecidableEq κ] in
lemma Queued.congr {R : Ring.Links κ} {L L' : Loop κ} (h : Queued R L)
    (hlist : L'.listPending = L.listPending)
    (hflag : ∀ k, has (L'.mem k).state fdePending = has (L.mem k).state fdePending)
    (hevents : ∀ k, (L'.mem k).events = 0#16 ↔ (L.mem k).events = 0#16)
    (hactive : ∀ k, has (L.mem k).state fdePending = true → L.Installed k → L'.Installed k) :
    Queued R L' := by
  refine ⟨hlist ▸ h.ring, ?_, ?_, ?_⟩
  · intro k
    rw [hlist, hflag]
    exact h.flag k
  · intro k
    rw [hflag, h.due, ne_eq, ne_eq, hevents]
  · intro k hk
    rw [hflag] at hk
    exact hactive k hk (h.active k hk)

omit [DecidableEq κ] in
/-- Changing what is pending at `k`, with the list and the links following. -/
lemma Queued.update {k : κ} {R R' : Ring.Links κ} {L L' : Loop κ} (h : Queued R L)
    (hR : Ring.Represents R' L'.listPending)
    (hlist : ∀ j, j ≠ k → (j ∈ L'.listPending ↔ j ∈ L.listPending))
    (hmem : ∀ j, j ≠ k → L'.mem j = L.mem j)
    (hself : k ∈ L'.listPending ↔ has (L'.mem k).state fdePending = true)
    (hdue : has (L'.mem k).state fdePending = true ↔ (L'.mem k).events ≠ 0#16)
    (hactive : has (L'.mem k).state fdePending = true → L'.Installed k) : Queued R' L' := by
  refine ⟨hR, ?_, ?_, ?_⟩
  · intro j
    by_cases hj : j = k
    · rw [hj, hself]
    · rw [hlist j hj, hmem j hj]
      exact h.flag j
  · intro j
    by_cases hj : j = k
    · rw [hj, hdue]
    · rw [hmem j hj]
      exact h.due j
  · intro j
    by_cases hj : j = k
    · rw [hj]
      exact hactive
    · rw [Installed, hmem j hj]
      exact h.active j

omit [DecidableEq κ] in
lemma Traced.congr {h : List (Happening κ)} {L L' : Loop κ} (hT : Traced h L)
    (hinst : ∀ k, L'.Installed k → L.Installed k)
    (hflag : ∀ k, has (L'.mem k).state fdePending = true → has (L.mem k).state fdePending = true) :
    Traced h L' :=
  ⟨hT.orderly, fun k hk => hT.alive k (hinst k hk), fun k hk => hT.due k (hflag k hk)⟩

omit [DecidableEq κ] in
lemma Uncalled.cons {k : κ} {x : Happening κ} {h : List (Happening κ)} (hu : Uncalled k h)
    (hx : ∀ events subscribed, x ≠ .called k events subscribed false) : Uncalled k (x :: h) := by
  intro events subscribed new old heq
  cases new with
  | nil => exact absurd (List.cons.inj heq).1 (hx events subscribed)
  | cons y new =>
    exact List.mem_cons_of_mem _ (hu events subscribed new old (List.cons.inj heq).2)

omit [DecidableEq κ] in
lemma uncalled_waited (k : κ) (h : List (Happening κ)) : Uncalled k (.waited :: h) := by
  intro events subscribed new old heq
  cases new with
  | nil => exact absurd (List.cons.inj heq).1 (by simp)
  | cons y new =>
    rw [← (List.cons.inj heq).1]
    exact List.mem_cons_self ..

/-- Something that happens to the `fdevent`s `j ≠ k` in name only: what was known of them
stays known. -/
lemma Traced.cons {k : κ} {x : Happening κ} {h : List (Happening κ)} {L L' : Loop κ}
    (hT : Traced h L) (hx : Orderly x h) (hw : x ≠ .waited)
    (hother : ∀ j, j ≠ k → x ≠ .removed j ∧ ∀ e s, x ≠ .called j e s false)
    (hmem : ∀ j, j ≠ k → L'.mem j = L.mem j)
    (halive : L'.Installed k → Alive k (x :: h))
    (hdue : has (L'.mem k).state fdePending = true → Due k (x :: h) ∧ Uncalled k (x :: h)) :
    Traced (x :: h) L' := by
  refine ⟨History.always_cons.mpr ⟨hx, hT.orderly⟩, ?_, ?_⟩
  · intro j hj
    by_cases hjk : j = k
    · subst hjk
      exact halive hj
    · rw [Installed, hmem j hjk] at hj
      exact (hT.alive j hj).cons (hother j hjk).1
  · intro j hj
    by_cases hjk : j = k
    · subst hjk
      exact hdue hj
    · rw [hmem j hjk] at hj
      obtain ⟨hd, hu⟩ := hT.due j hj
      refine ⟨hd.cons ?_, hu.cons (hother j hjk).2⟩
      rintro (h' | h')
      · exact (hother j hjk).1 h'
      · exact hw h'

/-! ## Turns that keep it -/

/-- The turn follows no null pointer, and keeps the invariant if it ends. -/
def Sound (x : Except Fault (EventLoop κ)) : Prop :=
  x ≠ .error .nullLink ∧ ∀ E, x = .ok E → Inv E

omit [DecidableEq κ] in
lemma Sound.ok {E : EventLoop κ} (h : Inv E) : Sound (.ok E) := by
  refine ⟨by simp, ?_⟩
  rintro E' ⟨⟩
  exact h

omit [DecidableEq κ] in
lemma Sound.error {f : Fault} (h : f ≠ .nullLink) : Sound (.error f : Except Fault (EventLoop κ)) :=
  ⟨by simpa using h, by simp⟩

omit [DecidableEq κ] in
lemma Sound.bind {x : Except Fault (EventLoop κ)} {f : EventLoop κ → Except Fault (EventLoop κ)}
    (hx : Sound x) (hf : ∀ E, Inv E → Sound (f E)) : Sound (x >>= f) := by
  cases x with
  | error e => exact .error fun he => hx.1 (congrArg _ he)
  | ok E => exact hf E (hx.2 E rfl)

omit [DecidableEq κ] in
/-- A call into `fdevent.c`, and what the links do with its outcome. -/
lemma Sound.stopping {x : Except Stop (Loop κ)} {f : Loop κ → Except Fault (EventLoop κ)}
    (hf : ∀ L, x = .ok L → Sound (f L)) : Sound (EventLoop.stopping x >>= f) := by
  cases x with
  | error e => exact .error (by simp)
  | ok L => exact hf L rfl

/-! ## Opening and closing descriptors, and the flag of `jdwp_process_alloc` -/

omit [DecidableEq κ] in
lemma inv_openFd {n : ℕ} {E : EventLoop κ} {L : Loop κ} (h : Inv E)
    (hopen : E.loop.openFd n = .ok L) : Inv { E with loop := L } := by
  unfold openFd at hopen
  split at hopen
  · cases hopen
  · cases hopen
    exact ⟨h.owned.congr (fun k hk => ⟨hk, rfl, rfl⟩) (fun _ _ he => he) (fun _ _ hs => hs) rfl,
      h.queued.congr rfl (fun _ => rfl) (fun _ => Iff.rfl) (fun _ _ hk => hk),
      h.traced.congr (fun _ hk => hk) (fun _ hk => hk)⟩

omit [DecidableEq κ] in
lemma inv_adbClose {n : ℕ} {E : EventLoop κ} (h : Inv E) :
    Inv { E with loop := E.loop.adbClose n } := by
  refine ⟨h.owned.congr (fun k hk => ⟨hk, rfl, rfl⟩) ?_ (fun _ _ hs => hs) rfl,
    h.queued.congr rfl (fun _ => rfl) (fun _ => Iff.rfl) (fun _ _ hk => hk),
    h.traced.congr (fun _ hk => hk) (fun _ hk => hk)⟩
  intro m e he
  by_cases hm : m = n
  · subst hm
    simp [adbClose] at he
  · simpa [adbClose, Function.update_of_ne hm] using he

/-- Rewriting one struct in ways the invariant does not see. -/
lemma inv_setMem {k : κ} {f : Fdevent} {E : EventLoop κ} (h : Inv E)
    (hfd : f.fd = (E.loop.mem k).fd) (hevents : f.events = 0#16 ↔ (E.loop.mem k).events = 0#16)
    (hactive : has f.state fdeActive = has (E.loop.mem k).state fdeActive)
    (hpending : has f.state fdePending = has (E.loop.mem k).state fdePending)
    (hmask : epollMask f.state = epollMask (E.loop.mem k).state) :
    Inv { E with loop := E.loop.setMem k f } := by
  have hmem : ∀ j, ((E.loop.setMem k f).mem j).fd = (E.loop.mem j).fd ∧
      (((E.loop.setMem k f).mem j).events = 0#16 ↔ (E.loop.mem j).events = 0#16) ∧
      has ((E.loop.setMem k f).mem j).state fdePending =
        has (E.loop.mem j).state fdePending ∧
      epollMask ((E.loop.setMem k f).mem j).state = epollMask (E.loop.mem j).state := by
    intro j
    by_cases hj : j = k
    · subst hj
      rw [setMem_mem_self]
      exact ⟨hfd, hevents, hpending, hmask⟩
    · rw [setMem_mem_of_ne hj]
      exact ⟨rfl, Iff.rfl, rfl, rfl⟩
  have hinst := installed_setMem hactive
  exact ⟨h.owned.congr (fun j hj => ⟨(hinst j).mpr hj, (hmem j).1, (hmem j).2.2.2⟩)
      (fun _ _ he => he) (fun _ _ hs => hs) rfl,
    h.queued.congr rfl (fun j => (hmem j).2.2.1) (fun j => (hmem j).2.1)
      (fun j _ hj => (hinst j).mpr hj),
    h.traced.congr (fun j hj => (hinst j).mp hj) (fun j hj => (hmem j).2.2.1 ▸ hj)⟩

/-! ## `fdevent_install`, `fdevent_create`, `fdevent_remove` -/

/-- An `fdevent` that is not queued has null links, so clearing them changes nothing. -/
lemma zeroLinks_eq {k : κ} {R : Ring.Links κ} {l : List κ} (h : Ring.Represents R l)
    (hk : k ∉ l) : zeroLinks k R = R := by
  obtain ⟨hnext, hprev⟩ := h.outside k hk
  have hn : Function.update R.next (some k) none = R.next := by
    rw [← hnext, Function.update_eq_self]
  have hp : Function.update R.prev (some k) none = R.prev := by
    rw [← hprev, Function.update_eq_self]
  unfold zeroLinks Ring.Links.setNext Ring.Links.setPrev
  simp only [hn, hp]

omit [DecidableEq κ] in
/-- What is not installed is not pending. -/
lemma Queued.idle {R : Ring.Links κ} {L : Loop κ} (h : Queued R L) {k : κ}
    (hk : ¬L.Installed k) : has (L.mem k).state fdePending = false ∧ k ∉ L.listPending := by
  have hp : ¬has (L.mem k).state fdePending = true := fun hp => hk (h.active k hp)
  exact ⟨by simpa using hp, fun hmem => hp ((h.flag k).mp hmem)⟩

/-- A struct that was not installed is installed on `n`. -/
lemma inv_install {k : κ} {n : ℕ} {state : BitVec 16} {T : ℕ → Slot κ} {m : ℕ} {E : EventLoop κ}
    (h : Inv E) (hidle : ¬E.loop.Installed k) (hactive : has state fdeActive = true)
    (hpending : has state fdePending = false) (hT : T n = .fde k)
    (hother : ∀ i j, i ≠ n → T i = .fde j → E.loop.fdTable i = .fde j ∨ E.loop.fill i = .fde j) :
    Inv (record (.installed k)
      { E with
        loop := { E.loop.setMem k { fd := n, state := state } with
          fdTable := T
          fdTableMax := m }
        links := zeroLinks k E.links }) := by
  obtain ⟨hold, hnot⟩ := h.queued.idle hidle
  have hmem : ∀ j, j ≠ k → (E.loop.setMem k { fd := n, state := state }).mem j = E.loop.mem j :=
    fun j hj => setMem_mem_of_ne hj ..
  have hne : ∀ j, E.loop.Installed j → j ≠ k := fun j hj hjk => hidle (hjk ▸ hj)
  have hself : (E.loop.setMem k { fd := n, state := state }).mem k = { fd := n, state := state } :=
    setMem_mem_self ..
  refine ⟨⟨?_, ?_, h.owned.fill⟩, ?_, ?_⟩
  · intro i asked j he
    obtain ⟨hj, hrest⟩ := h.owned.entry i asked j he
    simp only [Installed, record, hmem j (hne j hj)]
    exact ⟨hj, hrest⟩
  · intro i j hs
    simp only [Installed, record] at hs ⊢
    by_cases hi : i = n
    · subst hi
      obtain rfl : k = j := by simpa [hT] using hs
      rw [hself]
      exact ⟨hactive, rfl⟩
    · obtain ⟨hj, hfd⟩ := h.owned.slot i j
        ((hother i j hi hs).resolve_right (h.owned.fill i j))
      rw [hmem j (hne j hj)]
      exact ⟨hj, hfd⟩
  · refine h.queued.update ?_ (fun _ _ => Iff.rfl) hmem ?_ ?_ ?_
    · simp only [record]
      rw [zeroLinks_eq h.queued.ring hnot]
      exact h.queued.ring
    · simp [record, setMem, hnot, hpending]
    · simp [record, hpending]
    · simp [record, hpending]
  · have horderly : Orderly (.installed k) E.history := trivial
    refine h.traced.cons horderly (by simp) (fun j _ => by simp) hmem (fun _ => .here rfl) ?_
    intro hp
    simp only [record, setMem_mem_self, hpending] at hp
    cases hp

/-- `fdevent_remove` takes `k` off the list, the table and the interest list. -/
lemma inv_remove {k : κ} {E : EventLoop κ} {L : Loop κ} {R : Ring.Links κ} (h : Inv E)
    (hL : RemoveSpec k E.loop L) (hR : Ring.Represents R L.listPending) :
    Inv (record (.removed k) { E with loop := L, links := R }) := by
  have hself : has (L.mem k).state fdePending = false ∧ (L.mem k).events = 0#16 ∧
      ¬L.Installed k := by
    rw [Installed, hL.mem_self]
    simp
  have hinst : ∀ j, j ≠ k → (L.Installed j ↔ E.loop.Installed j) := by
    intro j hj
    rw [Installed, Installed, hL.mem_other j hj]
  refine ⟨⟨?_, ?_, ?_⟩, ?_, ?_⟩
  · intro n asked j he
    obtain ⟨hj, hfd, hrest⟩ := h.owned.entry n asked j (hL.interest_sub n _ he)
    have hjk : j ≠ k := by
      rintro rfl
      have hnone := hL.interest_self hj
      rw [hfd] at hnone
      exact absurd (hnone.symm.trans he) (by simp)
    refine ⟨(hinst j hjk).mpr hj, ?_⟩
    simp only [record]
    rw [hL.mem_other j hjk]
    exact ⟨hfd, hrest⟩
  · intro n j hs
    have hold : E.loop.fdTable n = .fde j ∧ j ≠ k := by
      by_cases hk : E.loop.Installed k
      · by_cases hn : n = (E.loop.mem k).fd
        · rw [hn] at hs
          exact absurd ((hL.fdTable_self hk).symm.trans hs) (by simp)
        · have hs' := (hL.fdTable_other n hn).symm.trans hs
          refine ⟨hs', ?_⟩
          rintro rfl
          exact hn (h.owned.slot n j hs').2.symm
      · have hs' : E.loop.fdTable n = .fde j := (hL.idle hk).2.2 ▸ hs
        refine ⟨hs', ?_⟩
        rintro rfl
        exact hk (h.owned.slot n j hs').1
    obtain ⟨hj, hfd⟩ := h.owned.slot n j hold.1
    refine ⟨(hinst j hold.2).mpr hj, ?_⟩
    simp only [record]
    rw [hL.mem_other j hold.2]
    exact hfd
  · intro n j
    simp only [record, hL.fill]
    exact h.owned.fill n j
  · refine h.queued.update hR ?_ hL.mem_other ?_ ?_ ?_
    · intro j hj
      change j ∈ L.listPending ↔ _
      rw [hL.pending]
      split
      · exact List.mem_erase_of_ne hj
      · exact Iff.rfl
    · change k ∈ L.listPending ↔ has (L.mem k).state fdePending = true
      rw [hself.1, hL.pending]
      split
      case isTrue => simp [List.Nodup.mem_erase_iff h.queued.ring.nodup]
      case isFalse hp => simpa using fun hmem => hp ((h.queued.flag k).mp hmem)
    · simp [record, hself.1, hself.2.1]
    · simp [record, hself.1]
  · have horderly : Orderly (.removed k) E.history := trivial
    refine h.traced.cons horderly (by simp) (fun j hj => by simpa using Ne.symm hj) hL.mem_other
      (fun hk => absurd hk hself.2.2) ?_
    intro hp
    simp only [record, hself.1] at hp
    cases hp

/-! ## `fdevent_set` -/

omit [DecidableEq κ] in
lemma eq_of_not_nonzero {m m' : EpollMask} (h : m.nonzero = false) (h' : m'.nonzero = false) :
    m = m' := by
  obtain ⟨i, o, e⟩ := m
  obtain ⟨i', o', e'⟩ := m'
  simp only [EpollMask.nonzero, Bool.or_eq_false_iff] at h h'
  rw [h.1.1, h.1.2, h.2, h'.1.1, h'.1.2, h'.2]

lemma installed_set {k : κ} {ev : BitVec 16} {L L' : Loop κ} (hs : SetSpec k ev L L') (j : κ) :
    L'.Installed j ↔ L.Installed j := by
  by_cases hj : j = k
  · rw [Installed, Installed, hj, hs.active]
  · rw [Installed, Installed, hs.mem_other j hj]

/-- The kernel's entry for `k` follows its subscription. -/
lemma owned_set {k : κ} {ev : BitVec 16} {L L' : Loop κ} (h : Owned L) (hs : SetSpec k ev L L') :
    Owned L' := by
  have hfd : ∀ j, (L'.mem j).fd = (L.mem j).fd := by
    intro j
    by_cases hj : j = k
    · rw [hj, hs.fd]
    · rw [hs.mem_other j hj]
  have hmask : epollMask (L'.mem k).state = epollMask ev := epollMask_congr hs.low
  -- an old entry that stays belongs to another `fdevent`, or asks for nothing
  have hold : ∀ n asked j, L.interest n = some (asked, j) →
      (j = k → epollMask (L.mem k).state = epollMask ev) →
      L'.Installed j ∧ (L'.mem j).fd = n ∧ asked = epollMask (L'.mem j).state := by
    intro n asked j he hsame
    obtain ⟨hin, hn, rfl⟩ := h.entry n asked j he
    refine ⟨(installed_set hs j).mpr hin, (hfd j).trans hn, ?_⟩
    by_cases hj : j = k
    · rw [hj, hsame hj, hmask]
    · rw [hs.mem_other j hj]
  refine ⟨?_, ?_, ?_⟩
  · intro n asked j he
    by_cases hn : n = (L.mem k).fd
    · subst hn
      rcases hs.interest_self asked j he with ⟨he, rfl⟩ | ⟨he, hwhy⟩ | ⟨rfl, rfl, hact⟩
      · exact h.entry _ asked j he
      · refine hold _ asked j he fun hj => ?_
        rcases hwhy with ⟨hzero, hlow⟩ | hidle
        · rw [has_eventMask, Bool.or_eq_false_iff] at hlow
          exact eq_of_not_nonzero hlow.1 hzero
        · have hin := (h.entry _ asked j he).1
          rw [Installed, hj, hidle] at hin
          cases hin
      · exact ⟨(installed_set hs j).mpr hact, hs.fd, hmask.symm⟩
    · rw [hs.interest_other n hn] at he
      refine hold n asked j he fun hj => ?_
      exact absurd (hj ▸ (h.entry n asked j he).2.1).symm hn
  · intro n j hslot
    rw [hs.fdTable] at hslot
    obtain ⟨hin, hn⟩ := h.slot n j hslot
    exact ⟨(installed_set hs j).mpr hin, (hfd j).trans hn⟩
  · intro n j
    rw [hs.fill]
    exact h.fill n j

/-- A successful `fdevent_set` unlinks what it empties, and keeps the invariant. -/
lemma inv_set {k : κ} {ev : BitVec 16} {E : EventLoop κ} {L : Loop κ} (h : Inv E)
    (hL : E.loop.fdeventSet k ev = .ok L) :
    ∃ R, (if E.Empties k ev then following (E.links.unlink k) else pure E.links) = .ok R ∧
      Inv { E with loop := L, links := R } := by
  by_cases hsame : (E.loop.mem k).state &&& fdeEventMask = ev &&& fdeEventMask
  · rw [fdeventSet_same hL hsame]
    exact ⟨E.links, by rw [if_neg fun he => he.1 hsame]; rfl, h⟩
  have hs := fdeventSet_spec hL
  have hinst := installed_set hs
  have hactive : has (L.mem k).state fdePending = true →
      has (E.loop.mem k).state fdePending = true → L.Installed k :=
    fun _ hp => (hinst k).mpr (h.queued.active k hp)
  -- a pending `fdevent` was pending before
  have htraced : (has (L.mem k).state fdePending = true →
      has (E.loop.mem k).state fdePending = true) → Traced E.history L := by
    refine fun hk => h.traced.congr (fun j hj => (hinst j).mp hj) fun j hj => ?_
    by_cases hjk : j = k
    · subst hjk
      exact hk hj
    · rwa [hs.mem_other j hjk] at hj
  rcases fdeventSet_pending hL hsame with
    ⟨hp, hevents, hp', hlist⟩ | ⟨hp, hevents, hp', hlist⟩
  · refine ⟨E.links, ?_, owned_set h.owned hs, ?_, htraced (by simp [hp'])⟩
    · rw [if_neg]
      · rfl
      · rintro ⟨-, he, -⟩
        exact absurd he (by simp [Pending, hp])
    · have hk : k ∉ E.loop.listPending := fun hmem =>
        absurd ((h.queued.flag k).mp hmem) (by simp [hp])
      apply h.queued.update (k := k) _ _ hs.mem_other
      · simp [hlist, hp', hk]
      · rw [hp', hevents, ← h.queued.due k, hp]
      · simp [hp']
      · rw [hlist]
        exact h.queued.ring
      · intro j _
        rw [hlist]
  · have hk : k ∈ E.loop.listPending := (h.queued.flag k).mpr hp
    by_cases hleft : (L.mem k).events = 0#16
    · obtain ⟨R, hunlink, hR⟩ := Ring.represents_unlink h.queued.ring hk
      rw [if_pos hleft] at hlist
      refine ⟨R, ?_, owned_set h.owned hs, ?_, htraced fun _ => hp⟩
      · rw [if_pos ⟨hsame, hp, hevents ▸ hleft⟩, hunlink]
        rfl
      · apply h.queued.update (k := k) _ _ hs.mem_other
        · simp [hlist, hp', hleft, List.Nodup.mem_erase_iff h.queued.ring.nodup]
        · simp [hp', hleft]
        · exact fun hp' => hactive hp' hp
        · rw [hlist]
          exact hR
        · intro j hj
          rw [hlist]
          exact List.mem_erase_of_ne hj
    · rw [if_neg hleft] at hlist
      refine ⟨E.links, ?_, owned_set h.owned hs, ?_, htraced fun _ => hp⟩
      · rw [if_neg]
        · rfl
        · rintro ⟨-, -, he⟩
          exact hleft (hevents.trans he)
      · apply h.queued.update (k := k) _ _ hs.mem_other
        · simp [hlist, hp', hleft, hk]
        · simp [hp', hleft]
        · exact fun hp' => hactive hp' hp
        · rw [hlist]
          exact h.queued.ring
        · intro j _
          rw [hlist]

/-! ## `fdevent_process` -/

/-- What one report does to the struct and the list. -/
lemma fdeventReport_pending (k : κ) (ev : EpollMask) (L : Loop κ) :
    ∃ f l, L.fdeventReport k ev = { L.setMem k f with listPending := l } ∧
      f.fd = (L.mem k).fd ∧ f.events = (L.mem k).events ||| fdeEvents ev ∧
      has f.state fdeActive = has (L.mem k).state fdeActive ∧
      epollMask f.state = epollMask (L.mem k).state ∧
      if f.events ≠ 0#16 ∧ ¬has (L.mem k).state fdePending = true then
        has f.state fdePending = true ∧ l = L.listPending ++ [k]
      else has f.state fdePending = has (L.mem k).state fdePending ∧ l = L.listPending := by
  have hor : ∀ m, has fdePending m = false →
      has ((L.mem k).state ||| fdePending) m = has (L.mem k).state m := by
    intro m hm
    rw [has_or, hm, Bool.or_false]
  unfold fdeventReport
  simp only
  split
  case isTrue hzero =>
    refine ⟨{ L.mem k with events := (L.mem k).events ||| fdeEvents ev }, L.listPending, rfl, rfl,
      rfl, rfl, rfl, ?_⟩
    rw [if_neg fun h => h.1 hzero]
    exact ⟨rfl, rfl⟩
  case isFalse hnz =>
    split
    case isTrue hp =>
      refine ⟨{ L.mem k with events := (L.mem k).events ||| fdeEvents ev }, L.listPending, rfl,
        rfl, rfl, rfl, rfl, ?_⟩
      rw [if_neg fun h => h.2 hp]
      exact ⟨rfl, rfl⟩
    case isFalse hp =>
      refine ⟨{ L.mem k with
          events := (L.mem k).events ||| fdeEvents ev
          state := (L.mem k).state ||| fdePending }, L.listPending ++ [k], ?_, rfl, rfl,
        hor _ (by decide), ?_, ?_⟩
      · simp [setMem, fdeventPlistEnqueue]
      · simp only [epollMask, hor _ (show has fdePending fdeRead = false by decide),
          hor _ (show has fdePending fdeWrite = false by decide),
          hor _ (show has fdePending fdeError = false by decide)]
      · rw [if_pos ⟨hnz, hp⟩]
        refine ⟨?_, rfl⟩
        rw [has_or, show has fdePending fdePending = true by decide, Bool.or_true]

/-- A reported `fdevent` is enqueued unless it is pending already. -/
lemma inv_reportOne {k : κ} {ev : EpollMask} {E : EventLoop κ} (h : Inv E)
    (hk : E.loop.Installed k) (hu : Uncalled k E.history) :
    ∃ E', E.reportOne k ev = .ok E' ∧ Inv E' ∧ E'.history = .reported k ev :: E.history := by
  obtain ⟨f, l, heq, hfd, hevents, hactive, hmask, hcase⟩ := fdeventReport_pending k ev E.loop
  have hmem : ∀ j, j ≠ k → (E.loop.setMem k f).mem j = E.loop.mem j :=
    fun j hj => setMem_mem_of_ne hj ..
  have hinst := installed_setMem (L := E.loop) hactive
  have hself : (E.loop.setMem k f).mem k = f := setMem_mem_self ..
  have howned : Owned { E.loop.setMem k f with listPending := l } := by
    refine h.owned.congr (fun j hj => ⟨(hinst j).mpr hj, ?_⟩) (fun _ _ he => he) (fun _ _ hs => hs)
      rfl
    by_cases hjk : j = k
    · subst hjk
      rw [hself]
      exact ⟨hfd, hmask⟩
    · rw [hmem j hjk]
      exact ⟨rfl, rfl⟩
  have htraced : Traced (.reported k ev :: E.history)
      { E.loop.setMem k f with listPending := l } := by
    have horderly : Orderly (.reported k ev) E.history := h.traced.alive k hk
    exact h.traced.cons horderly (by simp) (fun j _ => by simp) hmem
      (fun _ => (h.traced.alive k hk).cons (by simp))
      (fun _ => ⟨.here ⟨ev, rfl⟩, hu.cons (by simp)⟩)
  unfold reportOne
  rw [heq]
  by_cases hnew : f.events ≠ 0#16 ∧ ¬has (E.loop.mem k).state fdePending = true
  · rw [if_pos hnew] at hcase
    obtain ⟨hp, rfl⟩ := hcase
    have hnot : k ∉ E.loop.listPending := fun hmem => hnew.2 ((h.queued.flag k).mp hmem)
    obtain ⟨R, happend, hR⟩ := Ring.represents_append h.queued.ring hnot
    rw [if_pos (by rw [← hevents]; exact hnew), happend]
    refine ⟨_, rfl, ⟨howned, ?_, htraced⟩, rfl⟩
    refine h.queued.update hR ?_ hmem ?_ ?_ ?_
    · intro j hj
      simp [record, hj]
    · simp [record, hp]
    · simp [record, hp, hnew.1]
    · exact fun _ => (hinst k).mpr hk
  · rw [if_neg hnew] at hcase
    obtain ⟨hp, rfl⟩ := hcase
    rw [if_neg (by rw [← hevents]; exact hnew)]
    refine ⟨_, rfl, ⟨howned, ?_, htraced⟩, rfl⟩
    refine h.queued.update h.queued.ring (fun _ _ => Iff.rfl) hmem ?_ ?_ ?_
    · simp only [record, hself, hp]
      exact h.queued.flag k
    · simp only [record, hself, hp]
      constructor
      · intro hp hzero
        rw [hevents, BitVec.or_eq_zero_iff] at hzero
        exact (h.queued.due k).mp hp hzero.1
      · intro hnz
        by_contra hp
        exact hnew ⟨hnz, hp⟩
    · exact fun _ => (hinst k).mpr hk

lemma sound_report {batch : List (ℕ × EpollMask)} {E : EventLoop κ} (h : Inv E)
    (hu : ∀ k, Uncalled k E.history) :
    Sound (report batch E) := by
  induction batch generalizing E with
  | nil => exact .ok h
  | cons x batch ih =>
    obtain ⟨n, ev⟩ := x
    rw [report]
    split
    · exact .error (by simp)
    case h_2 asked k he =>
      split
      · obtain ⟨E', hone, hE', hhist⟩ := @inv_reportOne κ _ k ev E h (h.owned.entry n asked k he).1
          (hu k)
        rw [hone]
        apply ih hE'
        intro j
        rw [hhist]
        exact (hu j).cons (by simp)
      · exact .error (by simp)

/-! ## Dequeueing and calling -/

/-- The links hand out the head of the list, or say that it is empty. -/
lemma dequeue_eq {E : EventLoop κ} (h : Inv E) :
    (E.loop.listPending = [] ∧ E.dequeue = .ok (none, E)) ∨
    ∃ k rest R, E.loop.listPending = k :: rest ∧ Ring.Represents R rest ∧
      E.dequeue = .ok (some k,
        { E with loop := { E.loop with listPending := rest }, links := R }) := by
  have hring := h.queued.ring
  unfold dequeue
  cases hlist : E.loop.listPending with
  | nil =>
    rw [hlist] at hring
    left
    rw [Ring.represents_takeFirst_nil hring]
    exact ⟨rfl, rfl⟩
  | cons k rest =>
    rw [hlist] at hring
    obtain ⟨R, htake, hR⟩ := Ring.represents_takeFirst_cons hring
    right
    refine ⟨k, rest, R, rfl, hR, ?_⟩
    have herase : (k :: rest).erase k = rest := List.erase_cons_head ..
    rw [htake]
    change Except.ok (some k,
      { E with loop := { E.loop with listPending := (k :: rest).erase k }, links := R }) = _
    rw [herase]

lemma callFdfunc_pending {k : κ} {direct : Bool} {E : EventLoop κ} (hp : E.Pending k) :
    E.callFdfunc k direct = record
      (.called k (E.loop.mem k).events ((E.loop.mem k).state &&& fdeEventMask) direct)
      { E with loop := E.loop.setMem k { E.loop.mem k with
        events := 0#16
        state := (E.loop.mem k).state &&& ~~~fdePending } } := by
  have hp : has (E.loop.mem k).state fdePending = true := hp
  unfold callFdfunc fdeventCallFdfunc
  simp only [hp, if_true]

/-- Clearing the pending flag. -/
lemma cleared (x : BitVec 16) : has (x &&& ~~~fdePending) fdePending = false ∧
    has (x &&& ~~~fdePending) fdeActive = has x fdeActive ∧
    epollMask (x &&& ~~~fdePending) = epollMask x := by
  refine ⟨has_and_of_disjoint (by decide), has_and_not_of_disjoint (by decide), ?_⟩
  rw [epollMask, epollMask, has_and_not_of_disjoint (by decide),
    has_and_not_of_disjoint (by decide), has_and_not_of_disjoint (by decide)]

/-- The first of the list is unlinked, cleared and called. -/
lemma inv_called {k : κ} {rest : List κ} {R : Ring.Links κ} {E : EventLoop κ} (h : Inv E)
    (hlist : E.loop.listPending = k :: rest) (hR : Ring.Represents R rest)
    {events subscribed : BitVec 16} :
    Inv (record (.called k events subscribed false)
      { E with
        loop := ({ E.loop with listPending := rest } : Loop κ).setMem k { E.loop.mem k with
          events := 0#16
          state := (E.loop.mem k).state &&& ~~~fdePending }
        links := R }) := by
  obtain ⟨hflag, hact, hmask⟩ := cleared (E.loop.mem k).state
  have hk : k ∈ E.loop.listPending := by
    rw [hlist]
    exact List.mem_cons_self ..
  have hp := (h.queued.flag k).mp hk
  have hin := h.queued.active k hp
  have hnot : k ∉ rest := (List.nodup_cons.mp (hlist ▸ h.queued.ring.nodup)).1
  set f : Fdevent := { E.loop.mem k with
    events := 0#16
    state := (E.loop.mem k).state &&& ~~~fdePending } with hf
  have hmem : ∀ j, j ≠ k → (E.loop.setMem k f).mem j = E.loop.mem j :=
    fun j hj => setMem_mem_of_ne hj ..
  have hself : (E.loop.setMem k f).mem k = f := setMem_mem_self ..
  have hinst := installed_setMem (f := f) (L := E.loop) hact
  refine ⟨?_, ?_, ?_⟩
  · refine h.owned.congr (fun j hj => ⟨(hinst j).mpr hj, ?_⟩) (fun _ _ he => he) (fun _ _ hs => hs)
      rfl
    change ((E.loop.setMem k f).mem j).fd = _ ∧ epollMask ((E.loop.setMem k f).mem j).state = _
    by_cases hjk : j = k
    · rw [hjk, hself]
      exact ⟨rfl, hmask⟩
    · rw [hmem j hjk]
      exact ⟨rfl, rfl⟩
  · refine h.queued.update hR ?_ hmem ?_ ?_ ?_
    · intro j hj
      simp [record, setMem, hlist, hj]
    · simp [record, setMem, hnot, hf, hflag]
    · simp [record, setMem, hf, hflag]
    · exact fun _ => (hinst k).mpr hin
  · obtain ⟨hdue, hu⟩ := h.traced.due k hp
    have horderly : Orderly (.called k events subscribed false) E.history :=
      ⟨hdue, hu, h.traced.alive k hin⟩
    refine h.traced.cons horderly (by simp) (fun j hj => by simp [Ne.symm hj]) hmem
      (fun _ => (h.traced.alive k hin).cons (by simp)) ?_
    intro hp'
    simp [record, setMem, hf, hflag] at hp'

/-- The next callback: the first of the list is unlinked, cleared and called. -/
lemma sound_call {E : EventLoop κ} (h : Inv E) : Sound E.call := by
  unfold call
  rcases dequeue_eq h with ⟨-, hdeq⟩ | ⟨k, rest, R, hlist, hR, hdeq⟩
  · rw [hdeq]
    exact .error (by simp)
  have hp : has (E.loop.mem k).state fdePending = true := by
    rw [← h.queued.flag, hlist]
    exact List.mem_cons_self ..
  rw [hdeq]
  let E₁ : EventLoop κ := { E with loop := { E.loop with listPending := rest }, links := R }
  have hp₁ : E₁.Pending k := hp
  apply Sound.ok
  change Inv (E₁.callFdfunc k false)
  rw [callFdfunc_pending hp₁]
  exact inv_called h hlist hR

omit [DecidableEq κ] in
/-- Nothing is pending when a batch begins. -/
lemma inv_waited {E : EventLoop κ} (h : Inv E) (hlist : E.loop.listPending = []) :
    Inv (record .waited E) := by
  have hnone : ∀ k, ¬has (E.loop.mem k).state fdePending = true := by
    intro k hp
    have hk := (h.queued.flag k).mpr hp
    rw [hlist] at hk
    exact absurd hk List.not_mem_nil
  refine ⟨h.owned, h.queued, ?_, ?_, fun k hp => absurd hp (hnone k)⟩
  · exact History.always_cons.mpr ⟨trivial, h.traced.orderly⟩
  · exact fun k hk => (h.traced.alive k hk).cons (by simp)

lemma sound_wait {batch : List (ℕ × EpollMask)} {E : EventLoop κ} (h : Inv E) :
    Sound (E.wait batch) := by
  unfold wait
  rcases dequeue_eq h with ⟨hlist, hdeq⟩ | ⟨k, rest, R, -, -, hdeq⟩
  · rw [hdeq]
    exact sound_report (inv_waited h hlist) fun k => uncalled_waited k E.history
  · rw [hdeq]
    exact .error (by simp)

/-- A call past the list, to an installed `fdevent`. -/
lemma inv_direct {k : κ} {events subscribed : BitVec 16} {E : EventLoop κ} (h : Inv E)
    (hk : E.loop.Installed k) : Inv (record (.called k events subscribed true) E) := by
  have halive := h.traced.alive k hk
  have horderly : Orderly (.called k events subscribed true) E.history := halive
  refine ⟨h.owned, h.queued, h.traced.cons horderly (by simp) (fun j _ => by simp)
    (fun _ _ => rfl) (fun _ => halive.cons (by simp)) fun hp => ?_⟩
  obtain ⟨hdue, hu⟩ := h.traced.due k hp
  exact ⟨hdue.cons (by simp), hu.cons (by simp)⟩

omit [DecidableEq κ] in
/-- The shell-exit handler writes to an `fdevent` that stays where it is. -/
lemma inv_forced {k : κ} {E : EventLoop κ} (h : Inv E) : Inv (record (.forced k) E) := by
  refine ⟨h.owned, h.queued, History.always_cons.mpr ⟨trivial, h.traced.orderly⟩, ?_, ?_⟩
  · exact fun j hj => (h.traced.alive j hj).cons (by simp)
  · intro j hp
    obtain ⟨hdue, hu⟩ := h.traced.due j hp
    exact ⟨hdue.cons (by simp), hu.cons (by simp)⟩

/-- The struct of `k` with `force_eof` set. -/
def eofForced (k : κ) (E : EventLoop κ) : EventLoop κ :=
  { E with loop := E.loop.setMem k { E.loop.mem k with forceEof := true } }

lemma inv_eofForced {k : κ} {E : EventLoop κ} (h : Inv E) : Inv (E.eofForced k) :=
  inv_setMem h rfl Iff.rfl rfl rfl rfl

/-- The shell-exit handler leaves a pending `fdevent` where it is, and calls an idle one without
enqueueing it: the flag is set and cleared again around the call. -/
lemma forceEof_cases {k : κ} {E : EventLoop κ} (h : Inv E) (rcount : ℕ) :
    E.forceEof k rcount = E.eofForced k ∨
    ((E.eofForced k).Pending k ∧ E.forceEof k rcount = record (.forced k)
      { E.eofForced k with
        loop := (E.eofForced k).loop.setMem k { (E.eofForced k).loop.mem k with
          events := ((E.eofForced k).loop.mem k).events ||| fdeRead } }) ∨
    (((E.eofForced k).loop.mem k).events = 0#16 ∧
      ∃ events subscribed, E.forceEof k rcount = record (.called k events subscribed true)
        { E.eofForced k with
          loop := (E.eofForced k).loop.setMem k { (E.eofForced k).loop.mem k with
            events := 0#16 } }) := by
  have h₁ := inv_eofForced (k := k) h
  let fde : Fdevent := { (E.eofForced k).loop.mem k with
    events := ((E.eofForced k).loop.mem k).events ||| fdeRead }
  let E₂ : EventLoop κ := { E.eofForced k with
    loop := (E.eofForced k).loop.setMem k { fde with state := fde.state ||| fdePending } }
  have hsplit : E.forceEof k rcount = if rcount ≠ 0 then E.eofForced k else
      if has fde.state fdePending then
        record (.forced k) { E.eofForced k with loop := (E.eofForced k).loop.setMem k fde }
      else E₂.callFdfunc k true := rfl
  rw [hsplit]
  split
  · exact .inl rfl
  right
  split
  case isTrue hp => exact .inl ⟨hp, rfl⟩
  case isFalse hp =>
    right
    have hflag : has fde.state fdePending = false := by simpa using hp
    have hmem : E₂.loop.mem k = { fde with state := fde.state ||| fdePending } :=
      setMem_mem_self ..
    have hp₂ : E₂.Pending k := by
      rw [Pending, hmem]
      exact (has_or _ _ _).trans (by simp [show has fdePending fdePending = true by decide])
    have hzero : ((E.eofForced k).loop.mem k).events = 0#16 := by
      by_contra hne
      exact hp ((h₁.queued.due k).mpr hne)
    refine ⟨hzero, (E₂.loop.mem k).events, (E₂.loop.mem k).state &&& fdeEventMask, ?_⟩
    rw [callFdfunc_pending hp₂]
    have hsame : E₂.loop.setMem k { E₂.loop.mem k with
        events := 0#16
        state := (E₂.loop.mem k).state &&& ~~~fdePending } =
        (E.eofForced k).loop.setMem k { (E.eofForced k).loop.mem k with events := 0#16 } := by
      rw [hmem]
      simp only [or_and_not hflag]
      simp [E₂, setMem, fde]
    rw [hsame]

lemma inv_forceEof {k : κ} {rcount : ℕ} {E : EventLoop κ} (h : Inv E)
    (hk : E.loop.Installed k) : Inv (E.forceEof k rcount) := by
  have h₁ := inv_eofForced (k := k) h
  have hk₁ : (E.eofForced k).loop.Installed k := (installed_setMem (by rfl) k).mpr hk
  rcases forceEof_cases (k := k) h rcount with heq | ⟨hp, heq⟩ | ⟨hzero, e, s, heq⟩
  · rw [heq]
    exact h₁
  · rw [heq]
    have hnz : ((E.eofForced k).loop.mem k).events ||| fdeRead ≠ 0#16 := by
      intro hzero
      exact absurd (BitVec.or_eq_zero_iff.mp hzero).2 (by decide)
    have hold := (h₁.queued.due k).mp hp
    exact inv_forced (inv_setMem h₁ rfl (iff_of_false hnz hold) rfl rfl rfl)
  · rw [heq]
    exact inv_direct (inv_setMem h₁ rfl (by simp [hzero]) rfl rfl rfl)
      ((installed_setMem (by rfl) k).mpr hk₁)

/-! ## Every turn -/

lemma sound_set {k : κ} {ev : BitVec 16} {E : EventLoop κ} (h : Inv E) : Sound (E.set k ev) := by
  apply Sound.stopping
  intro L hL
  obtain ⟨R, hlinks, hinv⟩ := inv_set h hL
  rw [hlinks]
  exact .ok hinv

lemma sound_remove {k : κ} {E : EventLoop κ} (h : Inv E) : Sound (E.remove k) := by
  unfold remove
  obtain ⟨R, hlinks, hR⟩ : ∃ R,
      (if E.Pending k then following (E.links.unlink k) else pure E.links) = .ok R ∧
      Ring.Represents R (if has (E.loop.mem k).state fdePending then
        E.loop.listPending.erase k else E.loop.listPending) := by
    by_cases hp : E.Pending k
    · obtain ⟨R, hunlink, hR⟩ := Ring.represents_unlink h.queued.ring ((h.queued.flag k).mpr hp)
      rw [if_pos hp, if_pos (show has _ _ = true from hp), hunlink]
      exact ⟨R, rfl, hR⟩
    · rw [if_neg hp, if_neg (show ¬has _ _ = true from hp)]
      exact ⟨E.links, rfl, h.queued.ring⟩
  rw [hlinks]
  apply Sound.stopping
  intro L hL
  have hspec := fdeventRemove_spec hL
  exact .ok (inv_remove h hspec (hspec.pending ▸ hR))

lemma sound_operate {op : Operation κ} {E : EventLoop κ} (h : Inv E) : Sound (E.operate op) := by
  cases op with
  | openFd n => exact .stopping fun L hL => .ok (inv_openFd h hL)
  | closeFd n => exact .ok (inv_adbClose h)
  | install k n =>
    change Sound (E.install k n)
    unfold install
    split
    · exact .error (by simp)
    case isFalse hidle =>
      apply Sound.stopping
      intro L hL
      obtain ⟨T, m, rfl, hT, hother⟩ := fdeventInstall_ok hL
      exact .ok (inv_install h hidle (by decide) (by decide) hT hother)
  | create k n =>
    change Sound (E.create k n)
    unfold create
    split
    · exact .error (by simp)
    case isFalse hidle =>
      apply Sound.stopping
      intro L hL
      obtain ⟨T, m, rfl, hT, hother⟩ := fdeventCreate_ok hL
      exact .ok (inv_install h hidle (by decide) (by decide) hT hother)
  | dontClose k =>
    have hor : ∀ m, has fdeDontClose m = false →
        has ((E.loop.mem k).state ||| fdeDontClose) m = has (E.loop.mem k).state m := by
      intro m hm
      rw [has_or, hm, Bool.or_false]
    refine .ok (inv_setMem h rfl Iff.rfl (hor _ (by decide)) (hor _ (by decide)) ?_)
    rw [epollMask, hor _ (by decide), hor _ (by decide), hor _ (by decide), epollMask]
  | set k events => exact sound_set h
  | add k events => exact sound_set h
  | del k events => exact sound_set h
  | remove k => exact sound_remove h

lemma sound_childExited {n rcount : ℕ} {E : EventLoop κ} (h : Inv E) :
    Sound (E.childExited n rcount) := by
  unfold childExited
  split
  · exact .ok h
  split
  · exact .ok h
  · exact .error (by simp)
  case h_3 k hslot =>
    split
    · exact .ok h
    · exact .ok (inv_forceEof h (h.owned.slot n k hslot).1)

lemma sound_subproc {fd rcount : ℕ} {ev : BitVec 16} {answer : Option ℕ} {E : EventLoop κ}
    (h : Inv E) : Sound (E.subproc fd ev answer rcount) := by
  unfold subproc
  split
  · exact .error (by simp)
  split
  · exact .error (by simp)
  · exact .error (by simp)
  · apply Sound.bind (sound_set h)
    intro E' h'
    split
    · split
      · exact .error (by simp)
      · exact sound_childExited h'
    · exact .ok h'

/-- One turn. -/
theorem sound_step {t : Turn κ} {E : EventLoop κ} (h : Inv E) : Sound (step t E) := by
  cases t with
  | operate op => exact sound_operate h
  | wait batch => exact sound_wait h
  | call => exact sound_call h
  | subproc fd ev answer rcount => exact sound_subproc h

omit [DecidableEq κ] in
lemma inv_initial (garbage inUse : ℕ → Bool) : Inv (initial garbage inUse : EventLoop κ) := by
  have hidle : ∀ k : κ, ¬Installed k (initial garbage inUse).loop := by
    intro k
    simp [Installed, initial]
  refine ⟨⟨?_, ?_, ?_⟩, ⟨Ring.represents_empty, ?_, ?_, ?_⟩, History.always_nil, ?_, ?_⟩
  · intro n asked k he
    simp [initial] at he
  · intro n k hs
    simp [initial] at hs
  · intro n k
    simp only [initial]
    split <;> simp
  · intro k
    simp [initial]
  · intro k
    simp [initial]
  · intro k hp
    simp [initial] at hp
  · intro k hk
    exact absurd hk (hidle k)
  · intro k hp
    simp [initial] at hp

/-! ## Every run -/

/-- The run keeps the invariant as far as it goes, and no link of it is null when followed. -/
lemma run_inv {turns : List (Turn κ)} {E : EventLoop κ} (h : Inv E) :
    Sound (Transition.run step turns E) := by
  induction turns generalizing E with
  | nil => exact .ok h
  | cons t turns ih =>
    have hstep := @sound_step _ _ t _ h
    unfold Transition.run
    split
    case h_1 E' hE' => exact ih (hstep.2 E' hE')
    case h_2 f hf =>
      exact .error fun hnull => hstep.1 (hf.trans (congrArg _ hnull))

/-- However the descriptors become ready and whatever the callbacks do, between any two turns
the pending list is a well-formed ring of the pending `fdevent`s, and these are the ones with
events; every callback was for an `fdevent` that its batch had reported, that had not been
called in this batch yet, and that had not been removed since the report. -/
theorem pending_queue (garbage inUse : ℕ → Bool) (turns : List (Turn κ)) :
    match Transition.run step turns (initial garbage inUse) with
    | .ok E =>
      Ring.Represents E.links E.loop.listPending ∧
      (∀ k, k ∈ E.loop.listPending ↔ E.Pending k) ∧
      (∀ k, E.Pending k ↔ (E.loop.mem k).events ≠ 0#16) ∧
      History.Always Orderly E.history
    | .error f => f ≠ .nullLink := by
  have hrun := @run_inv κ _ turns _ (inv_initial garbage inUse)
  split
  case h_1 E hE =>
    have h := hrun.2 E hE
    exact ⟨h.queued.ring, h.queued.flag, h.queued.due, h.traced.orderly⟩
  case h_2 f hf =>
    rintro rfl
    exact hrun.1 hf

end EventLoop

end Adbd
