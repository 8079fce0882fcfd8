import Adbd.Model.Jdwp

/-!
# The JDWP handshake

A process that connects says its pid in four hexadecimal digits, which may arrive in any pieces
and over any number of events.  `pid < 0` is the mark of a process that has not done so yet, but
`sscanf` takes a sign for a part of the number: after `-001` the pid is negative, and the process
counts as one whose four bytes are still to come, although there is no room for more of them.
Every further event converts the same four bytes again and reads nothing from the socket, so that
the end of the connection is not noticed either.
-/

namespace Adbd

open Syscall Daemon

namespace JdwpProcess

/-! ## What a client sends -/

/-- The bytes a client sends before it goes away. -/
def received : List ReadResult → List UInt8
  | [] => []
  | .data bs :: rs => if bs = [] then [] else bs ++ received rs
  | .fail :: _ => []
  | .intr :: rs => received rs
  | .again :: rs => received rs

/-- The process after `n` events `FDE_READ`, if it has not been freed by then. -/
def after : ℕ → JdwpProcess → List ReadResult → Option JdwpProcess × List ReadResult
  | 0, proc, rs => (some proc, rs)
  | n + 1, proc, rs =>
    match proc.readable rs with
    | (.close, _, rs) => (none, rs)
    | (_, proc, rs) => after n proc rs

/-- A process as `jdwp_process_alloc` makes it. -/
def alloc (addr socket : ℕ) : JdwpProcess := { addr := addr, socket := socket }

/-- Whenever four bytes have been received, the pid is the number they denote, and not negative. -/
def Decided (proc : JdwpProcess) (reads : List ReadResult) : Prop :=
  ∀ n p rs, after n proc reads = (some p, rs) → p.inBuff.length = 4 →
    scanPid ((received reads).take 4) = some p.pid ∧ 0 ≤ p.pid

/-! ## One event -/

variable {proc p : JdwpProcess} {rs rs' : List ReadResult} {bs : List UInt8} {v : Int}

/-- What the loop reads is the front of what is sent. -/
lemma received_readLoop (n : ℕ) (rs : List ReadResult) : received rs =
    (readLoop n rs).1 ++ if (readLoop n rs).2.1 then [] else received (readLoop n rs).2.2 := by
  induction rs generalizing n with
  | nil => cases n <;> rfl
  | cons r rs ih =>
    cases n with
    | zero => rfl
    | succ n =>
      cases r with
      | data bs =>
        rw [received, readLoop]
        by_cases hbs : bs = []
        · rw [if_pos hbs, if_pos hbs]
          rfl
        rw [if_neg hbs, if_neg hbs]
        split
        case isTrue hle =>
          rw [ih (n + 1 - bs.length), List.append_assoc]
        case isFalse hle =>
          have hrest : bs.drop (n + 1) ≠ [] := by
            rw [Ne, List.drop_eq_nil_iff]
            exact hle
          simp only [Bool.false_eq_true, if_false, received, if_neg hrest]
          rw [← List.append_assoc, List.take_append_drop]
      | intr => exact ih (n + 1)
      | again => rfl
      | fail => rfl

/-- The loop fills what there is room for, unless the client is gone or has said nothing more. -/
lemma readLoop_ends (n : ℕ) (rs : List ReadResult) :
    (readLoop n rs).1.length = n ∧ (readLoop n rs).2.1 = false ∨ (readLoop n rs).1.length < n ∧
      ((readLoop n rs).2.1 = false →
        (readLoop n rs).2.2 = [] ∨ (readLoop n rs).2.2.length < rs.length) := by
  induction rs generalizing n with
  | nil =>
    cases n with
    | zero => exact .inl ⟨rfl, rfl⟩
    | succ n => exact .inr ⟨Nat.succ_pos n, fun _ => .inl rfl⟩
  | cons r rs ih =>
    cases n with
    | zero => exact .inl ⟨rfl, rfl⟩
    | succ n =>
      have hpos : 0 < n + 1 := Nat.succ_pos n
      cases r with
      | data bs =>
        rw [readLoop]
        split
        · exact .inr ⟨hpos, by simp⟩
        split
        case isTrue hle =>
          rcases ih (n + 1 - bs.length) with ⟨hlen, heof⟩ | ⟨hlen, hrest⟩
          · refine .inl ⟨?_, heof⟩
            rw [List.length_append, hlen]
            omega
          · refine .inr ⟨?_, fun heof => (hrest heof).imp_right Nat.lt_succ_of_lt⟩
            rw [List.length_append]
            omega
        case isFalse hle =>
          refine .inl ⟨?_, rfl⟩
          rw [List.length_take]
          omega
      | intr =>
        exact (ih (n + 1)).imp_right fun h =>
          ⟨h.1, fun heof => (h.2 heof).imp_right Nat.lt_succ_of_lt⟩
      | again => exact .inr ⟨hpos, fun _ => .inr (Nat.lt_succ_self _)⟩
      | fail => exact .inr ⟨hpos, fun h => by cases h⟩

/-- The four bytes have not all been received. -/
structure Waiting (bs : List UInt8) (p : JdwpProcess) (rs : List ReadResult) : Prop where
  pid : p.pid = -1
  short : p.inBuff.length < 4
  sent : p.inBuff ++ received rs = bs

/-- The four bytes have been received and converted. -/
structure Scanned (bs : List UInt8) (p : JdwpProcess) : Prop where
  full : 4 ≤ bs.length
  bytes : p.inBuff = bs.take 4
  pid : scanPid (bs.take 4) = some p.pid

/-- An event during the handshake. -/
lemma readable_waiting (h : Waiting bs p rs) :
    (∃ p' rs', p.readable rs = (.wait, p', rs') ∧ Waiting bs p' rs' ∧
      (rs' = [] ∨ rs'.length < rs.length)) ∨
    (∃ p' rs', p.readable rs = (.known, p', rs') ∧ Scanned bs p') ∨
    ∃ p' rs', p.readable rs = (.close, p', rs') ∧
      (4 ≤ bs.length → scanPid (bs.take 4) = none) := by
  have hpid : p.pid < 0 := by
    rw [h.pid]
    decide
  have hsent := received_readLoop (4 - p.inBuff.length) rs
  have hends := readLoop_ends (4 - p.inBuff.length) rs
  have hshort := h.short
  rw [readable, if_pos hpid]
  rcases hloop : readLoop (4 - p.inBuff.length) rs with ⟨bytes, eof, rs'⟩
  rw [hloop] at hsent hends
  dsimp only at hsent hends ⊢
  have hbs : bs = (p.inBuff ++ bytes) ++ if eof then [] else received rs' := by
    rw [List.append_assoc, ← hsent, h.sent]
  rcases hends with ⟨hlen, rfl⟩ | ⟨hlen, hrest⟩
  · -- all four bytes are there
    have hfour : (p.inBuff ++ bytes).length = 4 := by
      rw [List.length_append, hlen]
      omega
    have hfull : 4 ≤ bs.length := by
      rw [hbs, List.length_append, hfour]
      exact Nat.le_add_right _ _
    have htake : bs.take 4 = p.inBuff ++ bytes := by
      rw [hbs, List.take_left' hfour]
    rw [if_neg Bool.false_ne_true, if_neg (by omega)]
    cases hscan : scanPid (p.inBuff ++ bytes) with
    | none => exact .inr (.inr ⟨_, _, rfl, fun _ => htake ▸ hscan⟩)
    | some pid => exact .inr (.inl ⟨_, _, rfl, hfull, htake.symm, htake ▸ hscan⟩)
  · have hless : (p.inBuff ++ bytes).length < 4 := by
      rw [List.length_append]
      omega
    cases eof with
    | true =>
      refine .inr (.inr ⟨_, _, rfl, fun hfull => absurd hfull ?_⟩)
      rw [hbs, if_pos rfl, List.append_nil]
      exact Nat.not_le.mpr hless
    | false =>
      rw [if_neg Bool.false_ne_true, if_pos hless]
      exact .inl ⟨_, _, rfl, ⟨h.pid, hless, by rw [hbs, if_neg Bool.false_ne_true]⟩, hrest rfl⟩

/-- An event after four bytes that denote a negative number: nothing is read, and nothing
changes. -/
lemma readable_stuck (hneg : p.pid < 0) (hfull : p.inBuff.length = 4)
    (hscan : scanPid p.inBuff = some p.pid) (rs : List ReadResult) :
    p.readable rs = (.known, p, rs) := by
  have hloop : readLoop (4 - p.inBuff.length) rs = ([], false, rs) := by
    rw [hfull]
    cases rs <;> rfl
  rw [readable, if_pos hneg, hloop]
  dsimp only
  rw [List.append_nil, if_neg Bool.false_ne_true, if_neg (by omega), hscan]

/-- An event after the handshake changes nothing, unless the client is gone. -/
lemma readable_scanned (h : Scanned bs p) (rs : List ReadResult) :
    ∃ o rs', p.readable rs = (o, p, rs') := by
  have hfull : p.inBuff.length = 4 := by
    rw [h.bytes, List.length_take, Nat.min_eq_left h.full]
  by_cases hneg : p.pid < 0
  · exact ⟨_, _, readable_stuck hneg hfull (h.bytes ▸ h.pid) rs⟩
  · rw [readable, if_neg hneg]
    exact ⟨_, _, rfl⟩

/-! ## Any number of events -/

lemma after_scanned (h : Scanned bs p) (n : ℕ) {q : JdwpProcess}
    (hn : after n p rs = (some q, rs')) : q = p := by
  induction n generalizing rs with
  | zero =>
    rw [after, Prod.mk.injEq, Option.some.injEq] at hn
    exact hn.1.symm
  | succ n ih =>
    obtain ⟨o, rs₁, hread⟩ := readable_scanned h rs
    rw [after, hread] at hn
    cases o with
    | close => cases hn
    | wait => exact ih hn
    | known => exact ih hn

/-- A process that has not been freed waits for more bytes or has converted four. -/
lemma after_waiting (h : Waiting bs p rs) (n : ℕ) {q : JdwpProcess}
    (hn : after n p rs = (some q, rs')) : Waiting bs q rs' ∨ Scanned bs q := by
  induction n generalizing p rs with
  | zero =>
    rw [after, Prod.mk.injEq, Option.some.injEq] at hn
    obtain ⟨rfl, rfl⟩ := hn
    exact .inl h
  | succ n ih =>
    rw [after] at hn
    rcases readable_waiting h with ⟨p', rs₁, hread, h', -⟩ | ⟨p', rs₁, hread, h'⟩ |
      ⟨p', rs₁, hread, -⟩
    · rw [hread] at hn
      exact ih h' hn
    · rw [hread] at hn
      exact .inr (after_scanned h' n hn ▸ h')
    · rw [hread] at hn
      cases hn

/-- Four bytes that are sent and can be converted are converted after enough events. -/
lemma exists_scanned (h : Waiting bs p rs) (hfull : 4 ≤ bs.length)
    (hscan : scanPid (bs.take 4) = some v) :
    ∃ n q rs', after n p rs = (some q, rs') ∧ Scanned bs q := by
  induction hlen : rs.length using Nat.strongRecOn generalizing p rs with
  | ind n ih =>
    rcases readable_waiting h with ⟨p', rs₁, hread, h', hrest⟩ | ⟨p', rs₁, hread, h'⟩ |
      ⟨p', rs₁, hread, hclose⟩
    · rcases hrest with rfl | hless
      · -- the client says nothing more, but four bytes were sent
        have hshort := h'.short
        rw [← h'.sent, received, List.append_nil] at hfull
        omega
      · obtain ⟨k, q, rs₂, hafter, hq⟩ := ih rs₁.length (hlen ▸ hless) h' rfl
        refine ⟨k + 1, q, rs₂, ?_, hq⟩
        rw [after, hread]
        exact hafter
    · refine ⟨1, p', rs₁, ?_, h'⟩
      rw [after, hread]
      rfl
    · rw [hclose hfull] at hscan
      cases hscan

lemma waiting_alloc (addr socket : ℕ) (rs : List ReadResult) :
    Waiting (received rs) (alloc addr socket) rs :=
  ⟨rfl, Nat.succ_pos 3, rfl⟩

/-- The handshake is decided for every stream, unless its first four bytes denote a negative
number. -/
theorem decided_iff (addr socket : ℕ) (rs : List ReadResult) : Decided (alloc addr socket) rs ↔
    ¬(4 ≤ (received rs).length ∧ ∃ v < 0, scanPid ((received rs).take 4) = some v) := by
  constructor
  · rintro hdecided ⟨hfull, v, hv, hscan⟩
    obtain ⟨n, q, rs', hafter, hq⟩ := exists_scanned (waiting_alloc addr socket rs) hfull hscan
    have hlen : q.inBuff.length = 4 := by
      rw [hq.bytes, List.length_take, Nat.min_eq_left hfull]
    obtain ⟨hpid, hnonneg⟩ := hdecided n q rs' hafter hlen
    rw [hscan, Option.some.injEq] at hpid
    omega
  · intro hnot n q rs' hafter hlen
    rcases after_waiting (waiting_alloc addr socket rs) n hafter with hwait | hq
    · have hshort := hwait.short
      omega
    · exact ⟨hq.pid, Int.not_lt.mp fun hneg => hnot ⟨hq.full, q.pid, hneg, hq.pid⟩⟩

/-- A client that says `-001` and goes away: no number of events frees the process, or reads the
end of the connection. -/
theorem not_decided_sign :
    ¬Decided (alloc 0 7) [.data (str "-001"), .data []] ∧
      ∀ n, after (n + 1) (alloc 0 7) [.data (str "-001"), .data []] =
        (some { alloc 0 7 with inBuff := str "-001", pid := -1 }, [.data []]) := by
  have hevents : ∀ n, after (n + 1) (alloc 0 7) [.data (str "-001"), .data []] =
      (some { alloc 0 7 with inBuff := str "-001", pid := -1 }, [.data []]) := by
    intro n
    have hfirst : after (n + 1) (alloc 0 7) [.data (str "-001"), .data []] =
        after n { alloc 0 7 with inBuff := str "-001", pid := -1 } [.data []] := rfl
    rw [hfirst]
    induction n with
    | zero => rfl
    | succ n ih =>
      rw [after, readable_stuck (by decide) rfl rfl]
      exact ih rfl
  refine ⟨fun hdecided => ?_, hevents⟩
  have hpid := (hdecided 1 _ _ (hevents 0) rfl).2
  exact absurd hpid (by decide)

end JdwpProcess

end Adbd
