import Mathlib.Data.List.Basic
import Mathlib.Tactic.Lemma

/-!
# Scripts of system call results

What a program gets from a descriptor is a list of results, one for each call, chosen by the
environment.  A `data` result longer than the request is cut at the request and its remainder
is kept for the next call, so a list of results is also a division of a byte stream into
arbitrary pieces.  An exhausted script is an end of file for reads and a failure for writes.

`readFull` and `writeFull` are the usual loops that transfer a whole buffer: they go on after a
partial transfer and after `EINTR`, and give up on anything else.
-/

namespace Syscall

/-- Result of a `read`; `data []` is an end of file. -/
inductive ReadResult
  | data (bs : List UInt8)
  | again
  | intr
  | fail
  deriving DecidableEq, Repr

/-- Result of a `write`; `wrote n` accepts `n` bytes, or the whole buffer if that is shorter. -/
inductive WriteResult
  | wrote (n : ℕ)
  | again
  | intr
  | fail
  deriving DecidableEq, Repr

/-- The byte stream a read script divides. -/
def bytesOf : List ReadResult → List UInt8
  | [] => []
  | .data bs :: s => bs ++ bytesOf s
  | _ :: s => bytesOf s

/-- Read exactly `n` bytes: the bytes, or failure, and the rest of the script. -/
def readFull : ℕ → List ReadResult → Option (List UInt8) × List ReadResult
  | 0, s => (some [], s)
  | _ + 1, [] => (none, [])
  | n + 1, .data bs :: s =>
    if bs = [] then (none, s)
    else if bs.length ≤ n + 1 then
      let (r, s') := readFull (n + 1 - bs.length) s
      (r.map (bs ++ ·), s')
    else (some (bs.take (n + 1)), .data (bs.drop (n + 1)) :: s)
  | n + 1, .intr :: s => readFull (n + 1) s
  | _ + 1, .again :: s => (none, s)
  | _ + 1, .fail :: s => (none, s)
termination_by structural _ s => s

/-- How many bytes a full read of `n` has got when it returns, also when it fails. -/
def received : ℕ → List ReadResult → ℕ
  | 0, _ => 0
  | _ + 1, [] => 0
  | n + 1, .data bs :: s =>
    if bs = [] then 0
    else if bs.length ≤ n + 1 then bs.length + received (n + 1 - bs.length) s
    else n + 1
  | n + 1, .intr :: s => received (n + 1) s
  | _ + 1, .again :: _ => 0
  | _ + 1, .fail :: _ => 0
termination_by structural _ s => s

/-- Write all of `bs`: the bytes accepted, whether that is all of them, and the rest of the
script. -/
def writeFull : List UInt8 → List WriteResult → List UInt8 × Bool × List WriteResult
  | [], s => ([], true, s)
  | _ :: _, [] => ([], false, [])
  | b :: bs, .wrote n :: s =>
    if n = 0 then ([], false, s)
    else
      let (out, ok, s') := writeFull ((b :: bs).drop n) s
      ((b :: bs).take n ++ out, ok, s')
  | b :: bs, .intr :: s => writeFull (b :: bs) s
  | _ :: _, .again :: s => ([], false, s)
  | _ :: _, .fail :: s => ([], false, s)
termination_by structural _ s => s

/-- A script that neither ends nor fails: non-empty pieces, possibly interrupted. -/
def Flowing (s : List ReadResult) : Prop :=
  ∀ r ∈ s, r = .intr ∨ ∃ bs, bs ≠ [] ∧ r = .data bs

lemma flowing_data {chunks : List (List UInt8)} (h : ∀ c ∈ chunks, c ≠ []) :
    Flowing (chunks.map .data) := by
  intro r hr
  obtain ⟨c, hc, rfl⟩ := List.mem_map.mp hr
  exact .inr ⟨c, h c hc, rfl⟩

lemma bytesOf_data (chunks : List (List UInt8)) :
    bytesOf (chunks.map .data) = chunks.flatten := by
  induction chunks with
  | nil => rfl
  | cons c chunks ih => rw [List.map_cons, bytesOf, ih, List.flatten_cons]

/-- What a successful full read returns is the front of the stream, and the rest stays. -/
lemma readFull_some {n : ℕ} {s s' : List ReadResult} {bs : List UInt8}
    (h : readFull n s = (some bs, s')) : bs.length = n ∧ bytesOf s = bs ++ bytesOf s' := by
  induction s generalizing n bs with
  | nil =>
    cases n with
    | zero =>
      rw [readFull] at h
      cases h
      exact ⟨rfl, rfl⟩
    | succ n => simp [readFull] at h
  | cons r s ih =>
    cases n with
    | zero =>
      rw [readFull] at h
      cases h
      exact ⟨rfl, by simp⟩
    | succ n =>
      cases r with
      | data cs =>
        rw [readFull] at h
        by_cases hcs : cs = []
        · simp [hcs] at h
        rw [if_neg hcs] at h
        by_cases hle : cs.length ≤ n + 1
        · -- the piece is consumed whole
          rw [if_pos hle] at h
          cases hr : readFull (n + 1 - cs.length) s with
          | mk o t =>
            rw [hr] at h
            cases o with
            | none => simp at h
            | some ds =>
              simp only [Option.map_some, Prod.mk.injEq, Option.some.injEq] at h
              obtain ⟨rfl, rfl⟩ := h
              obtain ⟨hlen, hbytes⟩ := ih hr
              refine ⟨by simp; omega, ?_⟩
              rw [bytesOf, hbytes, List.append_assoc]
        · rw [if_neg hle] at h
          cases h
          refine ⟨by simp; omega, ?_⟩
          rw [bytesOf, bytesOf, ← List.append_assoc, List.take_append_drop]
      | intr =>
        rw [readFull] at h
        exact ih h
      | again => simp [readFull] at h
      | fail => simp [readFull] at h

/-- A full read gets no more than it asks for. -/
lemma received_le (n : ℕ) (s : List ReadResult) : received n s ≤ n := by
  induction s generalizing n with
  | nil => cases n <;> simp [received]
  | cons r s ih =>
    cases n with
    | zero => simp [received]
    | succ n =>
      cases r with
      | data bs =>
        rw [received]
        split
        · omega
        split
        · have hrest := ih (n + 1 - bs.length)
          omega
        · omega
      | intr =>
        rw [received]
        exact ih (n + 1)
      | again => simp [received]
      | fail => simp [received]

/-- However the stream is cut, a full read gets its first `n` bytes if there are that many. -/
lemma readFull_flowing {n : ℕ} {s : List ReadResult} (hs : Flowing s)
    (hn : n ≤ (bytesOf s).length) :
    ∃ s', readFull n s = (some ((bytesOf s).take n), s') ∧
      bytesOf s' = (bytesOf s).drop n ∧ Flowing s' := by
  induction s generalizing n with
  | nil =>
    have h0 : n = 0 := by simpa [bytesOf] using hn
    exact ⟨[], by rw [h0, readFull]; rfl, by simp [bytesOf], hs⟩
  | cons r s ih =>
    have hs' : Flowing s := fun r hr => hs r (List.mem_cons_of_mem _ hr)
    cases n with
    | zero => exact ⟨r :: s, by rw [readFull]; simp, by simp, hs⟩
    | succ n =>
      rcases hs r (List.mem_cons_self ..) with rfl | ⟨cs, hcs, rfl⟩
      · obtain ⟨t, ht, hb, hf⟩ := ih hs' (n := n + 1) (by simpa [bytesOf] using hn)
        exact ⟨t, by rw [readFull, ht]; rfl, hb, hf⟩
      · rw [bytesOf, List.length_append] at hn
        by_cases hle : cs.length ≤ n + 1
        · obtain ⟨t, ht, hb, hf⟩ := ih hs' (n := n + 1 - cs.length) (by omega)
          refine ⟨t, ?_, ?_, hf⟩
          · rw [readFull, if_neg hcs, if_pos hle, ht, bytesOf, List.take_append,
              List.take_of_length_le hle]
            rfl
          · rw [hb, bytesOf, List.drop_append, List.drop_of_length_le hle, List.nil_append]
        · refine ⟨.data (cs.drop (n + 1)) :: s, ?_, ?_, ?_⟩
          · rw [readFull, if_neg hcs, if_neg hle, bytesOf,
              List.take_append_of_le_length (by omega)]
          · rw [bytesOf, bytesOf, List.drop_append_of_le_length (by omega)]
          · intro r hr
            rcases List.mem_cons.mp hr with rfl | hr
            · exact .inr ⟨_, by simp; omega, rfl⟩
            · exact hs' r hr

/-- What stands at the front of the stream is read, and what is behind it stays. -/
lemma readFull_append {n : ℕ} {s : List ReadResult} {bs rest : List UInt8} (hs : Flowing s)
    (hb : bytesOf s = bs ++ rest) (hn : bs.length = n) :
    ∃ s', readFull n s = (some bs, s') ∧ bytesOf s' = rest ∧ Flowing s' := by
  obtain ⟨s', hread, hrest, hs'⟩ := readFull_flowing hs (n := n) (by
    rw [hb, List.length_append]
    omega)
  rw [hb, List.take_left' hn] at hread
  rw [hb, List.drop_left' hn] at hrest
  exact ⟨s', hread, hrest, hs'⟩

/-- A full write that reports success has emitted the whole buffer. -/
lemma writeFull_ok {bs out : List UInt8} {s s' : List WriteResult}
    (h : writeFull bs s = (out, true, s')) : out = bs := by
  induction s generalizing bs out with
  | nil =>
    cases bs with
    | nil =>
      rw [writeFull] at h
      cases h
      rfl
    | cons b bs => simp [writeFull] at h
  | cons r s ih =>
    cases bs with
    | nil =>
      rw [writeFull] at h
      cases h
      rfl
    | cons b bs =>
      cases r with
      | wrote n =>
        rw [writeFull] at h
        by_cases hn : n = 0
        · simp [hn] at h
        rw [if_neg hn] at h
        cases hr : writeFull ((b :: bs).drop n) s with
        | mk o p =>
          obtain ⟨ok, t⟩ := p
          rw [hr] at h
          simp only [Prod.mk.injEq] at h
          obtain ⟨rfl, rfl, rfl⟩ := h
          rw [ih hr, List.take_append_drop]
      | intr =>
        rw [writeFull] at h
        exact ih h
      | again => simp [writeFull] at h
      | fail => simp [writeFull] at h

/-! ## Writes that are let through in the end -/

/-- A script without failures: every write accepts something or is interrupted. -/
def Patient (s : List WriteResult) : Prop := ∀ r ∈ s, r = .intr ∨ ∃ n, 0 < n ∧ r = .wrote n

/-- How many bytes a script of writes can take. -/
def room : List WriteResult → ℕ
  | [] => 0
  | .wrote n :: s => n + room s
  | _ :: s => room s

lemma room_append (s t : List WriteResult) : room (s ++ t) = room s + room t := by
  induction s with
  | nil => exact (Nat.zero_add _).symm
  | cons r s ih => cases r <;> simp [room, ih, Nat.add_assoc]

/-- A full write emits a prefix of its buffer. -/
lemma writeFull_prefix {bs out : List UInt8} {ok : Bool} {s s' : List WriteResult}
    (h : writeFull bs s = (out, ok, s')) : out <+: bs := by
  induction s generalizing bs out with
  | nil =>
    cases bs with
    | nil =>
      rw [writeFull] at h
      cases h
      exact List.prefix_refl _
    | cons b bs =>
      rw [writeFull] at h
      cases h
      exact List.nil_prefix
  | cons r s ih =>
    cases bs with
    | nil =>
      rw [writeFull] at h
      cases h
      exact List.prefix_refl _
    | cons b bs =>
      cases r with
      | wrote n =>
        rw [writeFull] at h
        by_cases hn : n = 0
        · rw [if_pos hn] at h
          cases h
          exact List.nil_prefix
        rw [if_neg hn] at h
        cases hr : writeFull ((b :: bs).drop n) s with
        | mk o p =>
          obtain ⟨ok', t⟩ := p
          rw [hr] at h
          simp only [Prod.mk.injEq] at h
          obtain ⟨rfl, rfl, rfl⟩ := h
          obtain ⟨d, hd⟩ := ih hr
          exact ⟨d, by rw [List.append_assoc, hd, List.take_append_drop]⟩
      | intr =>
        rw [writeFull] at h
        exact ih h
      | again =>
        rw [writeFull] at h
        cases h
        exact List.nil_prefix
      | fail =>
        rw [writeFull] at h
        cases h
        exact List.nil_prefix

/-- A full write that reports failure has not emitted everything. -/
lemma writeFull_failed {bs out : List UInt8} {s s' : List WriteResult}
    (h : writeFull bs s = (out, false, s')) : out ≠ bs := by
  induction s generalizing bs out with
  | nil =>
    cases bs with
    | nil => simp [writeFull] at h
    | cons b bs =>
      rw [writeFull] at h
      cases h
      exact (List.cons_ne_nil _ _).symm
  | cons r s ih =>
    cases bs with
    | nil => simp [writeFull] at h
    | cons b bs =>
      cases r with
      | wrote n =>
        rw [writeFull] at h
        by_cases hn : n = 0
        · rw [if_pos hn] at h
          cases h
          exact (List.cons_ne_nil _ _).symm
        rw [if_neg hn] at h
        cases hr : writeFull ((b :: bs).drop n) s with
        | mk o p =>
          obtain ⟨ok', t⟩ := p
          rw [hr] at h
          simp only [Prod.mk.injEq] at h
          obtain ⟨rfl, rfl, rfl⟩ := h
          intro heq
          apply ih hr
          have hsplit : (b :: bs).take n ++ o = (b :: bs).take n ++ (b :: bs).drop n := by
            rw [heq, List.take_append_drop]
          exact List.append_cancel_left hsplit
      | intr =>
        rw [writeFull] at h
        exact ih h
      | again =>
        rw [writeFull] at h
        cases h
        exact (List.cons_ne_nil _ _).symm
      | fail =>
        rw [writeFull] at h
        cases h
        exact (List.cons_ne_nil _ _).symm

/-- A patient script that is followed by a write of everything lets a full write through, and
what is left is again such a script. -/
lemma writeFull_patient {bs : List UInt8} {s : List WriteResult} {n : ℕ} (hs : Patient s)
    (hn : bs.length ≤ n) :
    ∃ rest, writeFull bs (s ++ [.wrote n]) = (bs, true, rest) ∧ Patient rest.dropLast := by
  induction s generalizing bs with
  | nil =>
    cases bs with
    | nil => exact ⟨_, rfl, by simp [Patient]⟩
    | cons b bs =>
      have h0 : n ≠ 0 := by
        simp only [List.length_cons] at hn
        omega
      refine ⟨[], ?_, by simp [Patient]⟩
      rw [List.nil_append, writeFull, if_neg h0, List.drop_of_length_le hn, writeFull,
        List.take_of_length_le hn]
      simp only [List.append_nil]
  | cons r s ih =>
    have hs' : Patient s := fun r hr => hs r (List.mem_cons_of_mem _ hr)
    cases bs with
    | nil => exact ⟨_, rfl, by rwa [List.dropLast_concat]⟩
    | cons b bs =>
      rcases hs r (List.mem_cons_self ..) with rfl | ⟨m, hm, rfl⟩
      · obtain ⟨rest, hw, hp⟩ := ih hs' hn
        exact ⟨rest, by rw [List.cons_append, writeFull, hw], hp⟩
      · obtain ⟨rest, hw, hp⟩ := @ih ((b :: bs).drop m) hs' (by
          rw [List.length_drop]
          omega)
        refine ⟨rest, ?_, hp⟩
        rw [List.cons_append, writeFull, if_neg (by omega), hw]
        simp only [List.take_append_drop]

/-- A patient script with room for the buffer lets a full write through. -/
lemma writeFull_room {bs : List UInt8} {s : List WriteResult} (hs : Patient s)
    (hroom : bs.length ≤ room s) : ∃ rest, writeFull bs s = (bs, true, rest) := by
  induction s generalizing bs with
  | nil =>
    have hbs : bs = [] := List.length_eq_zero_iff.mp (Nat.le_zero.mp hroom)
    exact ⟨[], by rw [hbs, writeFull]⟩
  | cons r s ih =>
    have hs' : Patient s := fun r hr => hs r (List.mem_cons_of_mem _ hr)
    cases bs with
    | nil => exact ⟨r :: s, by rw [writeFull]⟩
    | cons b bs =>
      rcases hs r (List.mem_cons_self ..) with rfl | ⟨n, hn, rfl⟩
      · obtain ⟨rest, hw⟩ := ih hs' hroom
        exact ⟨rest, by rw [writeFull, hw]⟩
      · rw [room] at hroom
        obtain ⟨rest, hw⟩ := @ih ((b :: bs).drop n) hs' (by
          rw [List.length_drop]
          omega)
        refine ⟨rest, ?_⟩
        rw [writeFull, if_neg (by omega), hw]
        simp only [List.take_append_drop]

end Syscall
