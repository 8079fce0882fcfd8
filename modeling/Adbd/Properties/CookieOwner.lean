import Adbd.Model.ServiceThread

/-!
# Who releases a service's cookie

The argument of `reboot:` and the path of `log:` are on the heap when `create_service_thread` is
called.  `log_service` releases its path when it ends, and `service_to_fd` leaves it to the thread
also when there is none; `reboot_service` releases its argument, and `service_to_fd` does so too,
whatever came of the thread.  So a cookie is released exactly once, and is still there whenever it
is read, if the call for `reboot:` fails and the one for `log:` succeeds, and in no other case.

The invariant says, for each place the main thread and the service's thread can be in, who still
has to release the cookie.
-/

namespace Adbd

namespace ServiceThread

open Function Daemon Transition

/-! ## The property -/

/-- How often an object was released. -/
def releases (a : ℕ) (tr : List MemOp) : ℕ := tr.countP (· = .free a)

/-- The text that a service is to see. -/
def cookieText (name : List UInt8) : Option (List UInt8) :=
  if startsWith name "reboot:" then some (name.drop 7)
  else if startsWith name "log:" then some (str "/var/log/" ++ name.drop 4)
  else none

/-- The call, the service's thread and its child have come to their ends. -/
structure State.Finished (s : State) : Prop where
  main : s.main = .otherBranch ∨ ∃ ret, s.main = .returned ret
  thread : s.thread = .notCreated ∨ s.thread = .ended
  child : ∀ memory arg, s.child ≠ .exec memory arg

/-- A cookie holds the text after the prefix of the name, whoever reads it sees that text, and it
is released once, at the latest when everything is over. -/
structure Owned (name : List UInt8) (s : State) : Prop where
  text : ∀ a bs, .malloc a (.text bs) ∈ s.trace → cookieText name = some bs
  seen : ∀ a bs o, .malloc a (.text bs) ∈ s.trace → .read a o ∈ s.trace → o = some (.text bs)
  once : ∀ a bs, .malloc a (.text bs) ∈ s.trace → releases a s.trace ≤ 1
  released : s.Finished → ∀ a bs, .malloc a (.text bs) ∈ s.trace → releases a s.trace = 1

/-- In every order of the threads' steps. -/
def CookieOwned (c : Config) (name : List UInt8) (k : Calls) : Prop :=
  ∀ ms s, run (step c name k) ms {} = .ok s → Owned name s

/-- `create_service_thread` returns a descriptor. -/
def Calls.Succeeds (k : Calls) : Prop :=
  k.socketpair.isSome = true ∧ k.allocatesStinfo = true ∧ k.threadCreate = true

/-- `create_service_thread` returns −1. -/
def Calls.Fails (k : Calls) : Prop :=
  k.socketpair = none ∨ k.allocatesStinfo = true ∧ k.threadCreate = false

/-! ## Names -/

section Names

variable {c : Config} {name : List UInt8}

lemma serviceThread_reboot (h : startsWith name "reboot:" = true) :
    serviceThread c name = some (.rebootService, .strdup (name.drop 7)) := by
  obtain ⟨rest, rfl⟩ := startsWith_iff.mp h
  cases hr : c.recoveryMode <;> cases hh : c.host <;>
    simp [serviceThread, hr, hh, startsWith, str]

lemma serviceThread_log (h : startsWith name "log:" = true) :
    serviceThread c name = some (.logService, .logFilePath (name.drop 4)) := by
  obtain ⟨rest, rfl⟩ := startsWith_iff.mp h
  cases hr : c.recoveryMode <;> simp [serviceThread, hr, startsWith, str]

/-- These are the services that the main loop's model starts with a thread. -/
lemma serviceThread_isSome_iff : (serviceThread c name).isSome = true ↔
    launchOf c name = some .thread := by
  rw [serviceThread, launchOf]
  by_cases htcp : startsWith name "tcp:" = true
  · by_cases hcolon : (0x3a : UInt8) ∈ name.drop 4 <;> simp [htcp, hcolon]
  rw [Bool.not_eq_true] at htcp
  by_cases hlocal : (startsWith name "local:" || startsWith name "localreserved:" ||
      startsWith name "localabstract:" || startsWith name "localfilesystem:" ||
      startsWith name "dev:") = true
  · simp only [htcp, Bool.false_or, hlocal, if_true, Bool.false_eq_true, if_false]
    simp
  rw [Bool.not_eq_true] at hlocal
  simp only [htcp, Bool.false_or, hlocal, Bool.false_eq_true, if_false]
  repeat' split
  all_goals simp_all

/-- No other service has a cookie on the heap. -/
lemma serviceThread_word {f : Func} {arg : Argument} (hr : startsWith name "reboot:" = false)
    (hl : startsWith name "log:" = false) (h : serviceThread c name = some (f, arg)) :
    ∃ n, arg = .word n := by
  rw [serviceThread, hr, hl] at h
  simp only [Argument.null, Bool.false_eq_true, if_false] at h
  repeat' split at h
  all_goals
    first
    | cases h; done
    | rw [Option.some.injEq, Prod.mk.injEq] at h; exact ⟨_, h.2.symm⟩

end Names

/-! ## Ledgers -/

/-- Everything on record about the cookie, the object at 0, which was released `n` times. -/
structure Account (n : ℕ) (bs : List UInt8) (tr : List MemOp) : Prop where
  text : ∀ a bs', .malloc a (.text bs') ∈ tr → a = 0 ∧ bs' = bs
  seen : ∀ o, .read 0 o ∈ tr → o = some (.text bs)
  releases : releases 0 tr = n

namespace Account

variable {n : ℕ} {bs : List UInt8} {tr : List MemOp}

lemma start (bs : List UInt8) : Account 0 bs [.malloc 0 (.text bs)] := by
  refine ⟨?_, ?_, rfl⟩
  · intro a bs' h
    rw [List.mem_singleton, MemOp.malloc.injEq, Obj.text.injEq] at h
    exact h
  · intro o h
    rw [List.mem_singleton] at h
    cases h

/-- What is done with another object. -/
lemma cons (h : Account n bs tr) {op : MemOp} (htext : ∀ a bs', op ≠ .malloc a (.text bs'))
    (hread : ∀ o, op ≠ .read 0 o) (hfree : op ≠ .free 0) : Account n bs (op :: tr) := by
  refine ⟨?_, ?_, ?_⟩
  · intro a bs' hmem
    rcases List.mem_cons.mp hmem with heq | hmem
    · exact absurd heq.symm (htext a bs')
    · exact h.text a bs' hmem
  · intro o hmem
    rcases List.mem_cons.mp hmem with heq | hmem
    · exact absurd heq.symm (hread o)
    · exact h.seen o hmem
  · rw [ServiceThread.releases, List.countP_cons_of_neg (by simpa using hfree)]
    exact h.releases

lemma read (h : Account n bs tr) : Account n bs (.read 0 (some (.text bs)) :: tr) := by
  refine ⟨?_, ?_, ?_⟩
  · intro a bs' hmem
    rcases List.mem_cons.mp hmem with heq | hmem
    · cases heq
    · exact h.text a bs' hmem
  · intro o hmem
    rcases List.mem_cons.mp hmem with heq | hmem
    · rw [MemOp.read.injEq] at heq
      exact heq.2
    · exact h.seen o hmem
  · rw [ServiceThread.releases, List.countP_cons_of_neg (by simp)]
    exact h.releases

lemma free (h : Account n bs tr) : Account (n + 1) bs (.free 0 :: tr) := by
  refine ⟨?_, ?_, ?_⟩
  · intro a bs' hmem
    rcases List.mem_cons.mp hmem with heq | hmem
    · cases heq
    · exact h.text a bs' hmem
  · intro o hmem
    rcases List.mem_cons.mp hmem with heq | hmem
    · cases heq
    · exact h.seen o hmem
  · rw [ServiceThread.releases, List.countP_cons_of_pos (by simp)]
    exact congrArg (· + 1) h.releases

end Account

/-! ## Whose turn it is -/

/-- The service's thread has the path of `log:` to itself. -/
def ThreadOwns (bs : List UInt8) (s : State) : Prop :=
  match s.thread with
  | .bootstrap sti => sti = 1 ∧ s.heap 0 = some (.text bs) ∧ Account 0 bs s.trace ∧
      ∃ fd, s.heap 1 = some (.stinfo ⟨.logService, fd, .ptr 0⟩)
  | .logOpen sti _ path => sti = 1 ∧ path = .ptr 0 ∧ s.heap 0 = some (.text bs) ∧
      Account 0 bs s.trace
  | .logRead sti _ path | .logDone sti _ path => sti = 1 ∧ path = .ptr 0 ∧ Account 0 bs s.trace
  | .freeStinfo sti => sti = 1 ∧ Account 1 bs s.trace
  | .ended => Account 1 bs s.trace
  | .notCreated | .service _ | .rebootFork .. | .rebootWait .. | .rebootFree .. => False

/-- The main thread has the argument of `reboot:` to itself. -/
def MainOwns (n : ℕ) (bs : List UInt8) (s : State) : Prop :=
  s.thread = .notCreated ∧ Account n bs s.trace

/-- Who owns the cookie of `f`, on the way to the end of `service_to_fd`. -/
def Keeps (f : Func) (k : Calls) (bs : List UInt8) (s : State) : Prop :=
  match s.main with
  | .serviceToFd => s.thread = .notCreated ∧ s.trace = [] ∧ s.next = 0
  | .otherBranch => False
  | .createServiceThread g cookie => g = f ∧ cookie = .ptr 0 ∧ MainOwns 0 bs s ∧ s.next = 1 ∧
      s.heap 0 = some (.text bs)
  | .threadCreate g cookie _ _ sti => g = f ∧ cookie = .ptr 0 ∧ MainOwns 0 bs s ∧ sti = 1 ∧
      k.socketpair.isSome = true ∧ k.allocatesStinfo = true ∧
      s.heap 0 = some (.text bs) ∧ ∃ fd, s.heap 1 = some (.stinfo ⟨f, fd, .ptr 0⟩)
  | .back g cookie _ => g = f ∧ cookie = .ptr 0 ∧
      if f = .rebootService then MainOwns 0 bs s else ThreadOwns bs s
  | .returned _ => s.thread = .notCreated ∧ s.trace = [] ∨
      if f = .rebootService then MainOwns 1 bs s else ThreadOwns bs s
  | .exited => s.trace = [] ∨ Account 0 bs s.trace

section Steps

variable {c : Config} {name bs : List UInt8} {k : Calls} {s s' : State} {f : Func} {arg : Argument}

lemma stepThread_owns {ok : Bool} (h : ThreadOwns bs s) (hs : stepThread ok s = .ok s') :
    ThreadOwns bs s' ∧ s'.main = s.main ∧ s'.child = s.child := by
  rw [stepThread] at hs
  rw [ThreadOwns] at h
  cases ht : s.thread <;> rw [ht] at h hs <;> dsimp only at h hs
  case bootstrap sti =>
    obtain ⟨rfl, htext, hacc, fd, hsti⟩ := h
    rw [hsti] at hs
    dsimp only at hs
    rw [Except.ok.injEq] at hs
    subst hs
    exact ⟨⟨rfl, rfl, htext, hacc.cons nofun nofun nofun⟩, rfl, rfl⟩
  case logOpen sti fd path =>
    obtain ⟨rfl, rfl, htext, hacc⟩ := h
    rw [Except.ok.injEq] at hs
    subst hs
    have hread : Account 0 bs (s.readCookie s.heap (.ptr 0)).trace := by
      show Account 0 bs (.read 0 (s.heap 0) :: s.trace)
      rw [htext]
      exact hacc.read
    cases ok
    · exact ⟨⟨rfl, rfl, hread⟩, rfl, rfl⟩
    · exact ⟨⟨rfl, rfl, hread⟩, rfl, rfl⟩
  case logRead sti fd path =>
    obtain ⟨rfl, rfl, hacc⟩ := h
    cases ok
    · rw [if_neg Bool.false_ne_true, Except.ok.injEq] at hs
      subst hs
      exact ⟨⟨rfl, rfl, hacc⟩, rfl, rfl⟩
    · rw [if_pos rfl, Except.ok.injEq] at hs
      subst hs
      refine ⟨?_, rfl, rfl⟩
      rw [ThreadOwns, ht]
      exact ⟨rfl, rfl, hacc⟩
  case logDone sti fd path =>
    obtain ⟨rfl, rfl, hacc⟩ := h
    rw [Except.ok.injEq] at hs
    subst hs
    exact ⟨⟨rfl, hacc.free⟩, rfl, rfl⟩
  case freeStinfo sti =>
    obtain ⟨rfl, hacc⟩ := h
    rw [Except.ok.injEq] at hs
    subst hs
    exact ⟨hacc.cons nofun nofun nofun, rfl, rfl⟩
  all_goals cases hs

/-- The calls after which one side is left with the cookie, and knows it. -/
def Suits (f : Func) (k : Calls) : Prop :=
  f = .rebootService ∧ ¬k.Succeeds ∨ f = .logService ∧ ¬k.Fails

/-- The text that is allocated for the argument. -/
def Argument.text : Argument → Option (List UInt8)
  | .word _ => none
  | .strdup bs => some bs
  | .logFilePath logName => some (getLogFilePath logName)

lemma stepMain_keeps (hname : serviceThread c name = some (f, arg)) (htext : arg.text = some bs)
    (hk : Suits f k) (h : Keeps f k bs s) (hs : stepMain c name k s = .ok s') :
    Keeps f k bs s' := by
  rw [stepMain] at hs
  rw [Keeps] at h
  cases hm : s.main <;> rw [hm] at h hs <;> dsimp only at h hs
  case serviceToFd =>
    obtain ⟨hthread, htrace, hnext⟩ := h
    rw [hname] at hs
    have hmalloc : Keeps f k bs { s.malloc (.text bs) with
        main := .createServiceThread f (.ptr s.next) } := by
      refine ⟨rfl, congrArg Cookie.ptr hnext, ⟨hthread, ?_⟩, congrArg (· + 1) hnext, ?_⟩
      · show Account 0 bs (.malloc s.next _ :: s.trace)
        rw [htrace, hnext]
        exact .start bs
      · show update s.heap s.next _ 0 = _
        rw [hnext, update_self]
    cases arg with
    | word n => cases htext
    | strdup bs' =>
      cases htext
      dsimp only at hs
      split at hs
      · rw [Except.ok.injEq] at hs
        exact hs ▸ hmalloc
      · rw [Except.ok.injEq] at hs
        subst hs
        exact Or.inl ⟨hthread, htrace⟩
    | logFilePath logName =>
      cases htext
      dsimp only at hs
      split at hs
      · rw [Except.ok.injEq] at hs
        exact hs ▸ hmalloc
      · rw [Except.ok.injEq] at hs
        subst hs
        exact Or.inl htrace
  case createServiceThread g cookie =>
    obtain ⟨rfl, rfl, ⟨hthread, hacc⟩, hnext, hheap⟩ := h
    cases hp : k.socketpair with
    | none =>
      rw [hp, Except.ok.injEq] at hs
      subst hs
      rcases hk with ⟨rfl, -⟩ | ⟨rfl, hk⟩
      · exact ⟨rfl, rfl, hthread, hacc⟩
      · exact absurd (Or.inl hp) hk
    | some pair =>
      rw [hp] at hs
      dsimp only at hs
      split at hs
      case isTrue hsti =>
        rw [Except.ok.injEq] at hs
        subst hs
        refine ⟨rfl, rfl, ⟨hthread, ?_⟩, hnext, by rw [hp]; rfl, hsti, ?_, pair.2, ?_⟩
        · exact hacc.cons nofun nofun nofun
        · show update s.heap s.next _ 0 = _
          rw [hnext, update_of_ne Nat.zero_ne_one]
          exact hheap
        · show update s.heap s.next _ 1 = _
          rw [hnext, update_self]
      case isFalse =>
        rw [Except.ok.injEq] at hs
        subst hs
        exact Or.inr hacc
  case threadCreate g cookie s0 s1 sti =>
    obtain ⟨rfl, rfl, ⟨hthread, hacc⟩, rfl, hpair, hmem, hheap, hsti⟩ := h
    split at hs
    case isTrue hcreate =>
      rw [Except.ok.injEq] at hs
      subst hs
      rcases hk with ⟨-, hk⟩ | ⟨rfl, -⟩
      · exact absurd ⟨hpair, hmem, hcreate⟩ hk
      · refine ⟨rfl, rfl, ?_⟩
        rw [if_neg nofun]
        exact ⟨rfl, hheap, hacc, hsti⟩
    case isFalse hcreate =>
      rw [Except.ok.injEq] at hs
      subst hs
      rcases hk with ⟨rfl, -⟩ | ⟨-, hk⟩
      · exact ⟨rfl, rfl, hthread, hacc.cons nofun nofun nofun⟩
      · exact absurd (Or.inr ⟨hmem, Bool.not_eq_true _ ▸ hcreate⟩) hk
  case back g cookie ret =>
    obtain ⟨rfl, rfl, h⟩ := h
    rcases hk with ⟨rfl, -⟩ | ⟨rfl, -⟩
    · rw [if_pos rfl, Except.ok.injEq] at hs
      subst hs
      exact Or.inr ⟨h.1, h.2.free⟩
    · rw [if_neg nofun, Except.ok.injEq] at hs
      subst hs
      exact Or.inr h
  all_goals cases hs

/-- The main thread forks nobody. -/
lemma stepMain_child (hs : stepMain c name k s = .ok s') : s'.child = s.child := by
  rw [stepMain] at hs
  repeat' split at hs
  all_goals
    first
    | cases hs; done
    | rw [Except.ok.injEq] at hs; subst hs; first | rfl | exact State.freeCookie_child ..

lemma step_keeps (hname : serviceThread c name = some (f, arg)) (htext : arg.text = some bs)
    (hk : Suits f k) {m : Move} (h : s.child = .none ∧ Keeps f k bs s)
    (hs : step c name k m s = .ok s') : s'.child = .none ∧ Keeps f k bs s' := by
  obtain ⟨hchild, hkeeps⟩ := h
  cases m with
  | main => exact ⟨(stepMain_child hs).trans hchild, stepMain_keeps hname htext hk hkeeps hs⟩
  | child =>
    rw [step, stepChild, hchild] at hs
    cases hs
  | thread ok =>
    rw [step] at hs
    split at hs
    case isTrue => cases hs
    case isFalse hrun =>
      have hstill : s.thread = .notCreated → False := by
        intro hthread
        rw [stepThread, hthread] at hs
        cases hs
      have hmove : ThreadOwns bs s → s'.child = s.child ∧ s'.main = s.main ∧ ThreadOwns bs s' :=
        fun h => ⟨(stepThread_owns h hs).2.2, (stepThread_owns h hs).2.1, (stepThread_owns h hs).1⟩
      rw [Keeps] at hkeeps
      cases hm : s.main <;> rw [hm] at hkeeps <;> dsimp only at hkeeps
      case back g cookie ret =>
        obtain ⟨rfl, rfl, h⟩ := hkeeps
        rcases hk with ⟨rfl, -⟩ | ⟨rfl, -⟩
        · exact (hstill h.1).elim
        · obtain ⟨hchild', hmain', howns⟩ := hmove h
          refine ⟨hchild'.trans hchild, ?_⟩
          rw [Keeps, hmain', hm]
          exact ⟨rfl, rfl, howns⟩
      case returned ret =>
        rcases hkeeps with ⟨hthread, -⟩ | h
        · exact (hstill hthread).elim
        rcases hk with ⟨rfl, -⟩ | ⟨rfl, -⟩
        · exact (hstill h.1).elim
        · obtain ⟨hchild', hmain', howns⟩ := hmove h
          refine ⟨hchild'.trans hchild, ?_⟩
          rw [Keeps, hmain', hm]
          exact Or.inr howns
      case exited => exact absurd hm hrun
      case serviceToFd => exact (hstill hkeeps.1).elim
      case createServiceThread => exact (hstill hkeeps.2.2.1.1).elim
      case threadCreate => exact (hstill hkeeps.2.2.1.1).elim

/-! ## From the invariant to the property -/

/-- A record without a cookie. -/
lemma owned_of_noText (h : ∀ a bs, .malloc a (.text bs) ∉ s.trace) : Owned name s :=
  ⟨fun a bs' hmem => absurd hmem (h a bs'), fun a bs' _ hmem => absurd hmem (h a bs'),
    fun a bs' hmem => absurd hmem (h a bs'), fun _ a bs' hmem => absurd hmem (h a bs')⟩

lemma Account.owned {n : ℕ} (h : Account n bs s.trace) (hname : cookieText name = some bs)
    (hn : n ≤ 1) (hend : s.Finished → n = 1) : Owned name s := by
  refine ⟨?_, ?_, ?_, ?_⟩
  · intro a bs' hmem
    rw [(h.text a bs' hmem).2]
    exact hname
  · intro a bs' o hmem hread
    obtain ⟨rfl, rfl⟩ := h.text a bs' hmem
    exact h.seen o hread
  · intro a bs' hmem
    obtain ⟨rfl, rfl⟩ := h.text a bs' hmem
    rw [h.releases]
    exact hn
  · intro hfin a bs' hmem
    obtain ⟨rfl, rfl⟩ := h.text a bs' hmem
    rw [h.releases]
    exact hend hfin

lemma ThreadOwns.owned (h : ThreadOwns bs s) (hname : cookieText name = some bs) :
    Owned name s := by
  have hlast : ∀ {n : ℕ}, Account n bs s.trace → n ≤ 1 →
      (s.thread = .notCreated ∨ s.thread = .ended → n = 1) → Owned name s :=
    fun hacc hn hend => hacc.owned hname hn fun hfin => hend hfin.thread
  rw [ThreadOwns] at h
  cases ht : s.thread <;> rw [ht] at h hlast <;> dsimp only at h
  case bootstrap => exact hlast h.2.2.1 (Nat.zero_le 1) (by simp)
  case logOpen => exact hlast h.2.2.2 (Nat.zero_le 1) (by simp)
  case logRead => exact hlast h.2.2 (Nat.zero_le 1) (by simp)
  case logDone => exact hlast h.2.2 (Nat.zero_le 1) (by simp)
  case freeStinfo => exact hlast h.2 (Nat.le_refl 1) fun _ => rfl
  case ended => exact hlast h (Nat.le_refl 1) fun _ => rfl

lemma Keeps.owned (h : Keeps f k bs s) (hname : cookieText name = some bs) : Owned name s := by
  have hempty : s.trace = [] → Owned name s := by
    intro htrace
    apply owned_of_noText
    rw [htrace]
    exact fun _ _ => List.not_mem_nil
  have hmid : Account 0 bs s.trace →
      ¬(s.main = .otherBranch ∨ ∃ ret, s.main = .returned ret) → Owned name s :=
    fun hacc hrun => hacc.owned hname (Nat.zero_le 1) fun hfin => absurd hfin.main hrun
  rw [Keeps] at h
  cases hm : s.main <;> rw [hm] at h hmid <;> dsimp only at h
  case serviceToFd => exact hempty h.2.1
  case createServiceThread => exact hmid h.2.2.1.2 (by simp)
  case threadCreate => exact hmid h.2.2.1.2 (by simp)
  case back g cookie ret =>
    obtain ⟨-, -, h⟩ := h
    split at h
    · exact hmid h.2 (by simp)
    · exact h.owned hname
  case returned =>
    rcases h with h | h
    · exact hempty h.2
    split at h
    · exact h.2.owned hname (Nat.le_refl 1) fun _ => rfl
    · exact h.owned hname
  case exited =>
    rcases h with h | h
    · exact hempty h
    · exact hmid h (by simp)

/-! ## The other services -/

/-- A service whose cookie is not on the heap. -/
lemma stepMain_noText (hname : ∀ f arg, serviceThread c name = some (f, arg) →
      arg.text.isSome = true → k.allocates = false)
    (h : ∀ a bs, .malloc a (.text bs) ∉ s.trace) (hs : stepMain c name k s = .ok s') :
    ∀ a bs, .malloc a (.text bs) ∉ s'.trace := by
  have hstinfo : ∀ i a bs, MemOp.malloc a (.text bs) ∉ (s.malloc (.stinfo i)).trace := by
    intro i a bs hmem
    rcases List.mem_cons.mp hmem with heq | hmem
    · cases heq
    · exact h a bs hmem
  have hfree : ∀ b a bs, MemOp.malloc a (.text bs) ∉ (s.free b).trace := by
    intro b a bs hmem
    rcases List.mem_cons.mp hmem with heq | hmem
    · cases heq
    · exact h a bs hmem
  have hcookie : ∀ cookie a bs, MemOp.malloc a (.text bs) ∉ (s.freeCookie cookie).trace := by
    intro cookie
    cases cookie with
    | word n => exact h
    | ptr b => exact hfree b
  rw [stepMain] at hs
  repeat' split at hs
  all_goals
    first
    | cases hs; done
    | rw [Except.ok.injEq] at hs; subst hs
  all_goals
    first
    | exact h
    | exact hfree _
    | exact hcookie _
    | exact hstinfo _
    | exact absurd ‹k.allocates = true› (by
        rw [hname _ _ (by assumption) rfl]
        exact Bool.false_ne_true)

lemma stepThread_noText {ok : Bool} (h : ∀ a bs, .malloc a (.text bs) ∉ s.trace)
    (hs : stepThread ok s = .ok s') : ∀ a bs, .malloc a (.text bs) ∉ s'.trace := by
  have hcons : ∀ op : MemOp, (∀ a o, op ≠ .malloc a o) →
      ∀ a bs, MemOp.malloc a (.text bs) ∉ op :: s.trace := by
    intro op hop a bs hmem
    rcases List.mem_cons.mp hmem with heq | hmem
    · exact hop _ _ heq.symm
    · exact h a bs hmem
  have hread : ∀ cookie a bs,
      MemOp.malloc a (.text bs) ∉ (s.readCookie s.heap cookie).trace := by
    intro cookie
    cases cookie with
    | word n => exact h
    | ptr b => exact hcons _ nofun
  have hcookie : ∀ cookie a bs, MemOp.malloc a (.text bs) ∉ (s.freeCookie cookie).trace := by
    intro cookie
    cases cookie with
    | word n => exact h
    | ptr b => exact hcons _ nofun
  rw [stepThread] at hs
  repeat' split at hs
  all_goals
    first
    | cases hs; done
    | rw [Except.ok.injEq] at hs; subst hs
  all_goals
    first
    | exact h
    | exact hcons _ nofun
    | exact hcookie _
    | exact hread _

lemma stepChild_noText (h : ∀ a bs, .malloc a (.text bs) ∉ s.trace)
    (hs : stepChild s = .ok s') : ∀ a bs, .malloc a (.text bs) ∉ s'.trace := by
  rw [stepChild] at hs
  split at hs
  case h_1 memory cookie _ =>
    rw [Except.ok.injEq] at hs
    subst hs
    intro a bs hmem
    cases cookie with
    | word n => exact h a bs hmem
    | ptr b =>
      rcases List.mem_cons.mp hmem with heq | hmem
      · cases heq
      · exact h a bs hmem
  all_goals cases hs

lemma step_noText (hname : ∀ f arg, serviceThread c name = some (f, arg) →
      arg.text.isSome = true → k.allocates = false) {m : Move}
    (h : ∀ a bs, .malloc a (.text bs) ∉ s.trace) (hs : step c name k m s = .ok s') :
    ∀ a bs, .malloc a (.text bs) ∉ s'.trace := by
  cases m with
  | main => exact stepMain_noText hname h hs
  | child => exact stepChild_noText h hs
  | thread ok =>
    rw [step] at hs
    split at hs
    · cases hs
    · exact stepThread_noText h hs

/-! ## Every order of steps -/

lemma cookieOwned_of_noText (hname : ∀ f arg, serviceThread c name = some (f, arg) →
    arg.text.isSome = true → k.allocates = false) : CookieOwned c name k := by
  intro ms s hrun
  apply owned_of_noText
  exact run_invariant (fun m s s' h _ hs => step_noText hname h hs)
    (fun a bs => List.not_mem_nil) along_true hrun

lemma cookieOwned_of_suits (hname : serviceThread c name = some (f, arg))
    (htext : arg.text = some bs) (hcookie : cookieText name = some bs) (hk : Suits f k) :
    CookieOwned c name k := by
  intro ms s hrun
  have hstart : ({} : State).child = .none ∧ Keeps f k bs {} := ⟨rfl, rfl, rfl, rfl⟩
  have hinv := run_invariant (fun m s s' h _ hs => step_keeps hname htext hk h hs) hstart
    along_true hrun
  exact hinv.2.owned hcookie

/-! ## The other outcomes -/

/-- The main thread comes to the end of `service_to_fd` before the service's thread starts, so
that the child of `reboot_service` finds its argument released. -/
lemma run_reboot (hname : serviceThread c name = some (.rebootService, .strdup bs))
    (ha : k.allocates = true) (hk : k.Succeeds) :
    ∃ s, run (step c name k) [.main, .main, .main, .main, .thread true, .thread true, .child] {} =
      .ok s ∧ .malloc 0 (.text bs) ∈ s.trace ∧ .read 0 none ∈ s.trace := by
  obtain ⟨hp, hm, ht⟩ := hk
  obtain ⟨⟨s0, s1⟩, hp⟩ := Option.isSome_iff_exists.mp hp
  apply Outcome.exists_ok
  simp only [run, step, stepMain, hname, ha, hp, hm, ht, if_true]
  constructor
  · simp [State.malloc, State.freeCookie, State.free, State.readCookie]
  · simp [State.malloc, State.freeCookie, State.free, State.readCookie, update]

/-- `create_service_thread` does not release the path it was given. -/
lemma run_log (hname : serviceThread c name = some (.logService, .logFilePath bs))
    (ha : k.allocates = true) (hk : k.Fails) : ∃ ms s, run (step c name k) ms {} = .ok s ∧
      .malloc 0 (.text (getLogFilePath bs)) ∈ s.trace ∧ s.Finished ∧
      releases 0 s.trace = 0 := by
  cases hp : k.socketpair with
  | none =>
    refine ⟨[.main, .main, .main], Outcome.exists_ok ?_⟩
    simp only [run, step, stepMain, hname, ha, hp, if_true, reduceCtorEq, if_false]
    refine ⟨?_, ⟨Or.inr ⟨_, rfl⟩, Or.inl rfl, fun memory arg h => by cases h⟩, ?_⟩
    · simp [State.malloc]
    · simp [State.malloc, releases]
  | some pair =>
    obtain ⟨hm, ht⟩ := hk.resolve_left (by simp [hp])
    refine ⟨[.main, .main, .main, .main], Outcome.exists_ok ?_⟩
    simp only [run, step, stepMain, hname, ha, hp, hm, ht, if_true, reduceCtorEq, if_false,
      Bool.false_eq_true]
    refine ⟨?_, ⟨Or.inr ⟨_, rfl⟩, Or.inl rfl, fun memory arg h => by cases h⟩, ?_⟩
    · simp [State.malloc, State.free]
    · simp [State.malloc, State.free, releases]

/-- The cookie of a service has one owner exactly when the call for `reboot:` fails and the one
for `log:` does not. -/
theorem cookieOwned_iff (c : Config) (name : List UInt8) (k : Calls) :
    CookieOwned c name k ↔ (k.allocates = true →
      (startsWith name "reboot:" = true → ¬k.Succeeds) ∧
      (startsWith name "log:" = true → ¬k.Fails)) := by
  constructor
  · intro h ha
    constructor
    · intro hname hk
      obtain ⟨s, hrun, hmem, hread⟩ := run_reboot (serviceThread_reboot hname) ha hk
      exact absurd ((h _ s hrun).seen 0 _ _ hmem hread) nofun
    · intro hname hk
      obtain ⟨ms, s, hrun, hmem, hfin, hzero⟩ := run_log (serviceThread_log hname) ha hk
      have hone := (h ms s hrun).released hfin 0 _ hmem
      omega
  · intro h
    by_cases ha : k.allocates = true
    · obtain ⟨hreboot, hlog⟩ := h ha
      by_cases hr : startsWith name "reboot:" = true
      · exact cookieOwned_of_suits (serviceThread_reboot hr) rfl (by rw [cookieText, if_pos hr])
          (Or.inl ⟨rfl, hreboot hr⟩)
      by_cases hl : startsWith name "log:" = true
      · exact cookieOwned_of_suits (serviceThread_log hl) rfl
          (by rw [cookieText, if_neg hr, if_pos hl]; rfl) (Or.inr ⟨rfl, hlog hl⟩)
      · apply cookieOwned_of_noText
        intro f arg hname htext
        obtain ⟨n, rfl⟩ := serviceThread_word (Bool.not_eq_true _ ▸ hr) (Bool.not_eq_true _ ▸ hl)
          hname
        cases htext
    · exact cookieOwned_of_noText fun _ _ _ _ => Bool.not_eq_true _ ▸ ha

/-- The argument of `reboot:` is released twice, and the child reads it after that. -/
theorem not_cookieOwned_reboot :
    ¬CookieOwned {} (str "reboot:recovery") ⟨true, some (10, 11), true, true⟩ := by
  intro h
  have hname : startsWith (str "reboot:recovery") "reboot:" = true := by decide
  have hk : Calls.Succeeds ⟨true, some (10, 11), true, true⟩ := ⟨rfl, rfl, rfl⟩
  obtain ⟨s, hrun, hmem, hread⟩ := run_reboot (serviceThread_reboot hname) rfl hk
  exact absurd ((h _ s hrun).seen 0 _ _ hmem hread) nofun

/-! ## No order of steps gets stuck -/

/-- The `stinfo` is there until the service's thread has read it. -/
def Ready (s : State) : Prop :=
  match s.main with
  | .serviceToFd | .otherBranch => s.thread = .notCreated
  | .createServiceThread _ cookie => s.thread = .notCreated ∧ ∀ a, cookie = .ptr a → a < s.next
  | .threadCreate _ cookie _ _ sti => s.thread = .notCreated ∧ cookie ≠ .ptr sti ∧
      ∃ i, s.heap sti = some (.stinfo i)
  | .back _ cookie _ => ∀ sti, s.thread = .bootstrap sti → cookie ≠ .ptr sti ∧
      ∃ i, s.heap sti = some (.stinfo i)
  | .returned _ => ∀ sti, s.thread = .bootstrap sti → ∃ i, s.heap sti = some (.stinfo i)
  | .exited => True

lemma stepMain_ready (h : Ready s) (hs : stepMain c name k s = .ok s') : Ready s' := by
  rw [stepMain] at hs
  rw [Ready] at h
  cases hm : s.main <;> rw [hm] at h hs <;> dsimp only at h hs
  case serviceToFd =>
    have hnext : ∀ a, Cookie.ptr s.next = .ptr a → a < s.next + 1 := by
      intro a ha
      rw [Cookie.ptr.injEq] at ha
      omega
    repeat' split at hs
    all_goals
      rw [Except.ok.injEq] at hs
      subst hs
    · exact h
    · exact ⟨h, nofun⟩
    · exact ⟨h, hnext⟩
    · exact fun sti hsti => nomatch h.symm.trans hsti
    · exact ⟨h, hnext⟩
    · trivial
  case createServiceThread f cookie =>
    obtain ⟨hthread, hlt⟩ := h
    repeat' split at hs
    all_goals
      rw [Except.ok.injEq] at hs
      subst hs
    · exact fun sti hsti => nomatch hthread.symm.trans hsti
    · exact ⟨hthread, fun heq => Nat.lt_irrefl _ (hlt _ heq), _, update_self ..⟩
    · trivial
  case threadCreate f cookie s0 s1 sti =>
    obtain ⟨hthread, hne, hsti⟩ := h
    split at hs
    all_goals
      rw [Except.ok.injEq] at hs
      subst hs
    · intro sti' heq
      rw [ThreadPc.bootstrap.injEq] at heq
      exact heq ▸ ⟨hne, hsti⟩
    · exact fun sti' heq => nomatch hthread.symm.trans heq
  case back f cookie ret =>
    split at hs
    all_goals
      rw [Except.ok.injEq] at hs
      subst hs
    · intro sti hthread
      cases cookie with
      | word n => exact (h sti hthread).2
      | ptr a =>
        obtain ⟨hne, i, hi⟩ := h sti hthread
        refine ⟨i, ?_⟩
        show update s.heap a none sti = _
        rw [update_of_ne fun heq => hne (congrArg Cookie.ptr heq.symm)]
        exact hi
    · exact fun sti hthread => (h sti hthread).2
  all_goals cases hs

/-- The service's thread reads its `stinfo` once, and leaves the main thread alone. -/
lemma stepThread_main {ok : Bool} (hs : stepThread ok s = .ok s') :
    s'.main = s.main ∧ s.thread ≠ .notCreated ∧ ∀ sti, s'.thread ≠ .bootstrap sti := by
  rw [stepThread] at hs
  cases ht : s.thread <;> rw [ht] at hs <;> dsimp only at hs
  case bootstrap sti =>
    split at hs
    · rw [Except.ok.injEq] at hs
      subst hs
      refine ⟨rfl, nofun, fun sti => ?_⟩
      dsimp only [bootstrap]
      split <;> nofun
    · cases hs
  case logOpen =>
    rw [Except.ok.injEq] at hs
    subst hs
    refine ⟨State.readCookie_main .., nofun, fun sti => ?_⟩
    dsimp only
    split <;> nofun
  case rebootFork =>
    split at hs
    all_goals
      rw [Except.ok.injEq] at hs
      subst hs
      exact ⟨rfl, nofun, nofun⟩
  case logRead =>
    split at hs
    all_goals
      rw [Except.ok.injEq] at hs
      subst hs
    · exact ⟨rfl, nofun, fun sti heq => nomatch ht.symm.trans heq⟩
    · exact ⟨rfl, nofun, nofun⟩
  case rebootFree =>
    rw [Except.ok.injEq] at hs
    subst hs
    exact ⟨State.freeCookie_main .., nofun, nofun⟩
  case logDone =>
    rw [Except.ok.injEq] at hs
    subst hs
    exact ⟨State.freeCookie_main .., nofun, nofun⟩
  case notCreated => cases hs
  case ended => cases hs
  all_goals
    rw [Except.ok.injEq] at hs
    subst hs
    exact ⟨rfl, nofun, nofun⟩

lemma stepThread_ready {ok : Bool} (h : Ready s) (hs : stepThread ok s = .ok s') : Ready s' := by
  obtain ⟨hmain, hthread, hthread'⟩ := stepThread_main hs
  rw [Ready] at h ⊢
  rw [hmain]
  cases hm : s.main <;> rw [hm] at h <;> dsimp only at h ⊢
  case serviceToFd => exact absurd h hthread
  case otherBranch => exact absurd h hthread
  case createServiceThread => exact absurd h.1 hthread
  case threadCreate => exact absurd h.1 hthread
  case back => exact fun sti hsti => absurd hsti (hthread' sti)
  case returned => exact fun sti hsti => absurd hsti (hthread' sti)

lemma step_ready {m : Move} (h : Ready s) (hs : step c name k m s = .ok s') : Ready s' := by
  cases m with
  | main => exact stepMain_ready h hs
  | thread ok =>
    rw [step] at hs
    split at hs
    · cases hs
    · exact stepThread_ready h hs
  | child =>
    rw [step, stepChild] at hs
    split at hs
    case h_1 memory cookie _ =>
      rw [Except.ok.injEq] at hs
      subst hs
      rw [Ready] at h ⊢
      simpa using h
    all_goals cases hs

lemma stepMain_succeeds (hend : ¬(s.main = .otherBranch ∨ ∃ ret, s.main = .returned ret))
    (hrun : s.main ≠ .exited) : ∃ s', stepMain c name k s = .ok s' := by
  rw [stepMain]
  cases hm : s.main <;> rw [hm] at hend hrun
  case otherBranch => exact absurd (Or.inl rfl) hend
  case returned ret => exact absurd (Or.inr ⟨ret, rfl⟩) hend
  case exited => exact absurd rfl hrun
  all_goals
    dsimp only
    repeat' split
    all_goals exact ⟨_, rfl⟩

lemma stepThread_succeeds (hready : ∀ sti, s.thread = .bootstrap sti →
      ∃ i, s.heap sti = some (.stinfo i))
    (hend : ¬(s.thread = .notCreated ∨ s.thread = .ended)) :
    ∃ s', stepThread true s = .ok s' := by
  rw [stepThread]
  cases ht : s.thread <;> rw [ht] at hend hready
  case notCreated => exact absurd (Or.inl rfl) hend
  case ended => exact absurd (Or.inr rfl) hend
  case bootstrap sti =>
    obtain ⟨i, hi⟩ := hready sti rfl
    dsimp only
    rw [hi]
    exact ⟨_, rfl⟩
  all_goals exact ⟨_, rfl⟩

/-- Until everything is over, somebody can go on, unless the daemon has exited. -/
theorem exists_step {ms : List Move} (hrun : run (step c name k) ms {} = .ok s)
    (halive : s.main ≠ .exited) (hend : ¬s.Finished) : ∃ m s', step c name k m s = .ok s' := by
  have hstart : Ready {} := rfl
  have hready := run_invariant (fun m s s' h _ hs => step_ready h hs) hstart along_true hrun
  by_cases hmain : s.main = .otherBranch ∨ ∃ ret, s.main = .returned ret
  · by_cases hthread : s.thread = .notCreated ∨ s.thread = .ended
    · cases hchild : s.child with
      | exec memory arg => exact ⟨.child, _, by rw [step, stepChild, hchild]⟩
      | none => exact absurd ⟨hmain, hthread, by rw [hchild]; nofun⟩ hend
      | gone => exact absurd ⟨hmain, hthread, by rw [hchild]; nofun⟩ hend
    · have hsti : ∀ sti, s.thread = .bootstrap sti → ∃ i, s.heap sti = some (.stinfo i) := by
        rw [Ready] at hready
        rcases hmain with hm | ⟨ret, hm⟩
        · rw [hm] at hready
          exact absurd (Or.inl hready) hthread
        · rw [hm] at hready
          exact hready
      obtain ⟨s', hs'⟩ := stepThread_succeeds hsti hthread
      exact ⟨.thread true, s', by rw [step, if_neg halive, hs']⟩
  · obtain ⟨s', hs'⟩ := stepMain_succeeds hmain halive
    exact ⟨.main, s', hs'⟩

end Steps

end ServiceThread

end Adbd
