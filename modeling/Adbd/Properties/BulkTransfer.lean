import Adbd.Model.BulkTransfer

/-!
# The transfer loops on the same results

`readx` and `writex` take a call that transfers nothing for the end; `bulk_read` and `bulk_write`
ask again.  So where a descriptor goes on returning 0 the bulk loops never return, and where it
returns 0 once they succeed alone.  A transfer of no bytes makes a call in a bulk loop and none in
the others; `adb_read` and `adb_write` make it again while it is interrupted, and its verdict is
that of the first answer.

`transfers_agree_iff` says when the loops of a direction agree.  The lemmas `readx_eq`,
`writex_eq` and `bulkWrite_eq` say that the loops are those of `Adbd.Model.Wire` as long as they
return.
-/

namespace Adbd.BulkTransfer

open Syscall FullTransfer

/-! ## In order -/

section Order

variable {len : ℕ} {got buf : List UInt8}

lemma bytesOf_append (rs rs' : List ReadResult) :
    bytesOf (rs ++ rs') = bytesOf rs ++ bytesOf rs' := by
  induction rs with
  | nil => rfl
  | cons r rs ih => cases r <;> simp [bytesOf, ih]

/-- What reads store are the first bytes of the stream. -/
lemma gather_reading (hgot : got.length ≤ len) (rs : List ReadResult) :
    (reading len).gather got rs = (got ++ bytesOf rs).take len := by
  induction rs generalizing got with
  | nil =>
    rw [bytesOf, List.append_nil, List.take_of_length_le hgot]
    rfl
  | cons r rs ih =>
    have hnext := length_next (T := reading len) (r := r) hgot
    have hle : ((reading len).next got r).length ≤ len := by
      rw [hnext]
      exact Nat.min_le_right _ _
    rw [gather, List.foldl_cons, ← gather, ih hle]
    cases r with
    | data bs =>
      change ((got ++ bs.take (len - got.length)) ++ bytesOf rs).take len = _
      rw [bytesOf]
      rcases Nat.le_total bs.length (len - got.length) with hfits | hcut
      · rw [List.take_of_length_le hfits, List.append_assoc]
      · -- the result is cut, and nothing behind it is stored
        have hfull : (got ++ bs.take (len - got.length)).length = len := by
          rw [List.length_append, List.length_take]
          omega
        rw [List.take_left' hfull, ← List.append_assoc,
          List.take_append_of_le_length (by rw [List.length_append]; omega), List.take_append,
          List.take_of_length_le hgot]
    | again =>
      rw [next_of_size rfl]
      rfl
    | intr =>
      rw [next_of_size rfl]
      rfl
    | fail =>
      rw [next_of_size rfl]
      rfl

/-- What writes take is the front of the buffer. -/
lemma gather_writing (hgot : got <+: buf) (rs : List WriteResult) :
    (writing buf).gather got rs <+: buf := by
  induction rs generalizing got with
  | nil => exact hgot
  | cons r rs ih =>
    rw [gather, List.foldl_cons, ← gather]
    apply ih
    obtain ⟨todo, rfl⟩ := hgot
    apply (List.prefix_append_right_inj got).mpr
    cases r with
    | wrote n =>
      change ((got ++ todo).drop got.length).take n <+: todo
      rw [List.drop_left]
      exact List.take_prefix n todo
    | again => exact List.nil_prefix
    | intr => exact List.nil_prefix
    | fail => exact List.nil_prefix

end Order

/-! ## The loops of `Adbd.Model.Wire` -/

section Wire

variable {len : ℕ} {got got' todo buf out : List UInt8} {rs : List ReadResult}
  {ws : List WriteResult} {ok : Bool} {v : ℤ}

lemma strict_reading_done (hfull : len ≤ got.length)
    (h : (reading len).strict got rs = some (ok, got')) :
    (readFull (len - got.length) rs).1.map (got ++ ·) = if ok then some got' else none := by
  rw [strict_done hfull] at h
  cases h
  rw [Nat.sub_eq_zero_of_le hfull, readFull, Option.map_some, List.append_nil]
  rfl

/-- What `readx` of the wire model does with the rest of a buffer. -/
lemma strict_reading (h : (reading len).strict got rs = some (ok, got')) (hgot : got.length ≤ len) :
    (readFull (len - got.length) rs).1.map (got ++ ·) = if ok then some got' else none := by
  induction rs generalizing got with
  | nil =>
    rcases Nat.lt_or_ge got.length len with hlt | hge
    · rw [strict, if_pos (show got.length < (reading len).len from hlt)] at h
      cases h
    · exact strict_reading_done hge h
  | cons r rs ih =>
    rcases Nat.lt_or_ge got.length len with hlt | hge
    case inr => exact strict_reading_done hge h
    have hlt' : got.length < (reading len).len := hlt
    obtain ⟨n, hn⟩ : ∃ n, len - got.length = n + 1 := ⟨len - got.length - 1, by omega⟩
    rw [hn]
    cases r with
    | data bs =>
      rw [readFull]
      by_cases hbs : bs = []
      · subst hbs
        rw [strict_cons_of_stops hlt' (.inr rfl)] at h
        cases h
        rfl
      have hns : ¬(reading len).Stops (.data bs) :=
        not_stops_of_moved rfl fun hzero => hbs (List.length_eq_zero_iff.mp hzero)
      rw [strict_cons hlt' hns] at h
      change (reading len).strict (got ++ bs.take (len - got.length)) rs = _ at h
      rw [if_neg hbs]
      by_cases hle : bs.length ≤ n + 1
      · rw [List.take_of_length_le (by omega)] at h
        have hrest := ih h (by rw [List.length_append]; omega)
        rw [List.length_append, ← Nat.sub_sub, hn] at hrest
        rw [if_pos hle, ← hrest, Option.map_map]
        congr 1
        funext ds
        exact (List.append_assoc got bs ds).symm
      · rw [strict_done (by simp [reading]; omega)] at h
        cases h
        rw [if_neg hle, hn]
        rfl
    | intr =>
      rw [strict_cons hlt' (not_stops_of_intr rfl), next_of_size rfl] at h
      rw [readFull, ← hn]
      exact ih h hgot
    | again =>
      rw [strict_cons_of_stops hlt' (.inl rfl)] at h
      cases h
      rfl
    | fail =>
      rw [strict_cons_of_stops hlt' (.inl rfl)] at h
      cases h
      rfl

/-- What `writex` of the wire model does with the rest of a buffer. -/
lemma strict_writing (h : (writing (got ++ todo)).strict got ws = some (ok, got')) :
    ∃ out rest, writeFull todo ws = (out, ok, rest) ∧ got' = got ++ out := by
  induction ws generalizing got todo with
  | nil =>
    cases todo with
    | nil =>
      rw [strict_done (by simp [writing])] at h
      cases h
      exact ⟨[], [], rfl, (List.append_nil _).symm⟩
    | cons b todo =>
      rw [strict, if_pos (by simp [writing])] at h
      cases h
  | cons w ws ih =>
    cases todo with
    | nil =>
      rw [strict_done (by simp [writing])] at h
      cases h
      exact ⟨[], w :: ws, rfl, (List.append_nil _).symm⟩
    | cons b todo =>
      have hlt : got.length < (writing (got ++ b :: todo)).len := by simp [writing]
      cases w with
      | wrote n =>
        rcases Nat.eq_zero_or_pos n with rfl | hn
        · rw [strict_cons_of_stops hlt (.inr rfl)] at h
          cases h
          exact ⟨[], ws, rfl, (List.append_nil _).symm⟩
        · have hns : ¬(writing (got ++ b :: todo)).Stops (.wrote n) :=
            not_stops_of_moved rfl (Nat.ne_of_gt hn)
          have hsplit : got ++ b :: todo =
              (got ++ (b :: todo).take n) ++ (b :: todo).drop n := by
            rw [List.append_assoc, List.take_append_drop]
          rw [strict_cons hlt hns] at h
          change (writing (got ++ b :: todo)).strict
            (got ++ ((got ++ b :: todo).drop got.length).take n) ws = _ at h
          rw [List.drop_left, hsplit] at h
          obtain ⟨out, rest, hout, rfl⟩ := ih h
          refine ⟨(b :: todo).take n ++ out, rest, ?_, List.append_assoc _ _ _⟩
          rw [writeFull, if_neg (Nat.ne_of_gt hn), hout]
      | intr =>
        rw [strict_cons hlt (not_stops_of_intr rfl), next_of_size rfl] at h
        exact ih h
      | again =>
        rw [strict_cons_of_stops hlt (.inl rfl)] at h
        cases h
        exact ⟨[], ws, rfl, (List.append_nil _).symm⟩
      | fail =>
        rw [strict_cons_of_stops hlt (.inl rfl)] at h
        cases h
        exact ⟨[], ws, rfl, (List.append_nil _).symm⟩

/-- What `bulk_write` of the wire model does with the rest of a buffer. -/
lemma insistent_writing (h : (writing (got ++ todo)).insistent got ws = some (ok, got')) :
    ∃ out rest, Adbd.bulkWrite todo ws = (out, ok, rest) ∧ got' = got ++ out := by
  induction ws generalizing got todo with
  | nil => cases h
  | cons w ws ih =>
    cases w with
    | wrote n =>
      have hsplit : got ++ todo = (got ++ todo.take n) ++ todo.drop n := by
        rw [List.append_assoc, List.take_append_drop]
      have hnext : (writing (got ++ todo)).next got (.wrote n) = got ++ todo.take n := by
        change got ++ ((got ++ todo).drop got.length).take n = _
        rw [List.drop_left]
      rw [insistent_cons_of_moved rfl, hnext] at h
      rw [Adbd.bulkWrite]
      by_cases hall : todo.drop n = []
      · have hle : todo.length ≤ n := List.drop_eq_nil_iff.mp hall
        rw [if_neg (by simp [writing]; omega)] at h
        cases h
        exact ⟨todo, ws, if_pos hall, by rw [List.take_of_length_le hle]⟩
      · have hlt : n < todo.length :=
          Nat.lt_of_not_le fun hle => hall (List.drop_eq_nil_iff.mpr hle)
        rw [if_pos (by simp [writing]; omega), hsplit] at h
        obtain ⟨out, rest, hout, rfl⟩ := ih h
        refine ⟨todo.take n ++ out, rest, ?_, List.append_assoc _ _ _⟩
        rw [if_neg hall, hout]
    | intr =>
      rw [insistent_cons_of_intr rfl] at h
      exact ih h
    | again =>
      rw [insistent_cons_of_error rfl] at h
      cases h
      exact ⟨[], ws, rfl, (List.append_nil _).symm⟩
    | fail =>
      rw [insistent_cons_of_error rfl] at h
      cases h
      exact ⟨[], ws, rfl, (List.append_nil _).symm⟩

end Wire

/-! ## Verdicts -/

section Verdict

variable {ρ : Type} {T : FullTransfer ρ UInt8} {c : ℕ → ρ} {rs : List ρ}

/-- The verdict of a loop. -/
def verdict (p : Bool × List UInt8) : ℤ × List UInt8 := (if p.1 then 0 else -1, p.2)

/-- For a length that is an `int`, the verdict of `usb_ffs_read` and `usb_ffs_write` is that of
their loop. -/
lemma usbFfs_eq (hlen : T.len < 2 ^ 31) (rs : List ρ) :
    usbFfs T rs = (T.insistent [] rs).map verdict := by
  rw [usbFfs, bulk, Option.map_map]
  cases hrs : T.insistent [] rs with
  | none => rfl
  | some p =>
    obtain ⟨ok, got⟩ := p
    obtain ⟨hall, -, -⟩ := insistent_some hrs (Nat.zero_le _)
    simp only [Option.map_some, Function.comp_apply, verdict]
    cases ok with
    | false =>
      rw [if_neg (show ¬false = true by decide), if_neg (by omega)]
      rfl
    | true =>
      have hcount : (got.length : ℤ).bmod (2 ^ 32) = (T.len : ℤ) := by
        rw [hall rfl]
        apply Int.bmod_eq_of_le <;> omega
      rw [if_pos rfl, hcount, if_pos rfl]
      rfl

lemma verdict_eq_zero {p : Bool × List UInt8} : (verdict p).1 = 0 ↔ p.1 = true := by
  rw [verdict]
  split <;> simp_all

lemma verdict_cases (p : Bool × List UInt8) : (verdict p).1 = 0 ∨ (verdict p).1 = -1 := by
  rw [verdict]
  split
  · exact .inl rfl
  · exact .inr rfl

end Verdict

section Wire

variable {len : ℕ} {got buf out : List UInt8} {rs : List ReadResult} {ws : List WriteResult} {v : ℤ}

lemma readx_eq (h : readx len rs = some (v, got)) :
    (Adbd.readx len rs).1 = if v = 0 then some got else none := by
  obtain ⟨⟨ok, got'⟩, hstrict, hv⟩ := Option.map_eq_some_iff.mp h
  have hread := strict_reading hstrict (Nat.zero_le _)
  cases hv
  cases ok <;> simpa [Adbd.readx] using hread

lemma writex_eq (h : writex buf ws = some (v, out)) :
    ∃ rest, Adbd.writex buf ws = (out, decide (v = 0), rest) := by
  obtain ⟨⟨ok, out'⟩, hstrict, hv⟩ := Option.map_eq_some_iff.mp h
  obtain ⟨out'', rest, hwrite, rfl⟩ := @strict_writing [] _ _ _ _ hstrict
  cases hv
  exact ⟨rest, by rw [Adbd.writex, hwrite]; cases ok <;> rfl⟩

lemma bulkWrite_eq (hlen : buf.length < 2 ^ 31) (h : usbFfsWrite buf ws = some (v, out)) :
    ∃ rest, Adbd.bulkWrite buf ws = (out, decide (v = 0), rest) := by
  rw [usbFfsWrite, usbFfs_eq (show (writing buf).len < 2 ^ 31 from hlen)] at h
  obtain ⟨⟨ok, out'⟩, hinsistent, hv⟩ := Option.map_eq_some_iff.mp h
  obtain ⟨out'', rest, hwrite, rfl⟩ := @insistent_writing [] _ _ _ _ hinsistent
  cases hv
  exact ⟨rest, by rw [hwrite]; cases ok <;> rfl⟩

end Wire

/-! ## The main result -/

section Agrees

variable {ρ : Type} {T : FullTransfer ρ UInt8} {c : ℕ → ρ}

/-- On a sequence of results the loops of `usb_linux_client.c` return, and the verdict is that of
the loop of `transport.c`: 0 if exactly what was asked for has been transferred and -1 if not. -/
def Agrees (full bulk usb : List ρ → Option (ℤ × List UInt8)) (Exactly : List UInt8 → Prop)
    (c : ℕ → ρ) : Prop :=
  ∃ n v got got', Returns bulk c (n, got) ∧ Returns usb c (v, got) ∧ Returns full c (v, got') ∧
    (v = 0 ∨ v = -1) ∧ (v = 0 ↔ Exactly got) ∧ (v = 0 ↔ Exactly got')

/-- The first `len` bytes of the stream have been read. -/
def ReadExactly (len : ℕ) (c : ℕ → ReadResult) (got : List UInt8) : Prop :=
  got.length = len ∧ ∃ k, got <+: bytesOf (front c k)

/-- The loops agree exactly on the settled sequences, if it can be told by the length whether what
has been transferred is what was asked for. -/
lemma agrees_iff (hlen : T.len < 2 ^ 31) (hc : T.Ends c) {Exactly : List UInt8 → Prop}
    (hexact : ∀ k rs, rs <+: front c k →
      (Exactly (T.gather [] rs) ↔ (T.gather [] rs).length = T.len)) :
    Agrees (transferx T) (bulk T) (usbFfs T) Exactly c ↔ T.Settled c := by
  have husb : usbFfs T = fun rs => (T.insistent [] rs).map verdict := funext (usbFfs_eq hlen)
  constructor
  · rintro ⟨n, v, got, got', -, hreturns, hfull, -⟩
    rw [husb] at hreturns
    obtain ⟨⟨ok, g⟩, hinsistent, hv⟩ := hreturns.of_map
    obtain ⟨⟨ok', g'⟩, hstrict, hv'⟩ := Returns.of_map (g := verdict) hfull
    have hok : ok = true ↔ ok' = true := by
      rw [← verdict_eq_zero (p := (ok, g)), ← verdict_eq_zero (p := (ok', g')), hv, hv']
    rw [Bool.eq_iff_iff.mpr hok] at hinsistent
    exact (loops_agree_iff hc).mp ⟨ok', g', g, hstrict, hinsistent⟩
  · intro hsettled
    obtain ⟨ok, got', got, hstrict, hinsistent⟩ := (loops_agree_iff hc).mpr hsettled
    refine ⟨_, (verdict (ok, got)).1, got, got', hinsistent.map, ?_, hstrict.map,
      verdict_cases _, ?_, ?_⟩
    · rw [husb]
      exact hinsistent.map
    · rw [verdict_eq_zero]
      have hpos : ok = false → 0 < T.len := by
        rintro rfl
        apply Nat.pos_of_ne_zero
        intro hzero
        obtain ⟨k₀, hk₀⟩ := hc.answer
        obtain ⟨got₁, hnothing⟩ := insistent_returns_nothing hzero hk₀
        rw [decide_eq_true (hsettled.first hzero k₀ hk₀)] at hnothing
        cases hinsistent.unique insistent_append hnothing
      obtain ⟨k, hk⟩ := hinsistent
      obtain ⟨hall, hfew, rs, hrs, rfl⟩ := insistent_some hk (Nat.zero_le _)
      rw [hexact k rs hrs]
      refine ⟨hall, fun hlength => ?_⟩
      cases ok with
      | true => rfl
      | false => exact absurd hlength (hfew (hpos rfl) rfl)
    · rw [verdict_eq_zero]
      obtain ⟨k, hk⟩ := hstrict
      obtain ⟨hok, rs, hrs, rfl⟩ := strict_some hk (Nat.zero_le _)
      rw [hexact k rs hrs]
      exact hok

lemma exactly_reading {len k : ℕ} {c : ℕ → ReadResult} {rs : List ReadResult}
    (hrs : rs <+: front c k) : ReadExactly len c ((reading len).gather [] rs) ↔
      ((reading len).gather [] rs).length = (reading len).len := by
  refine ⟨fun h => h.1, fun h => ⟨h, k, ?_⟩⟩
  obtain ⟨rest, hrest⟩ := hrs
  rw [gather_reading (Nat.zero_le _), List.nil_append, ← hrest, bytesOf_append]
  exact (List.take_prefix _ _).trans (List.prefix_append _ _)

lemma exactly_writing {buf : List UInt8} (rs : List WriteResult) :
    (writing buf).gather [] rs = buf ↔
      ((writing buf).gather [] rs).length = (writing buf).len :=
  ⟨fun h => congrArg List.length h, (gather_writing List.nil_prefix rs).eq_of_length⟩

end Agrees

/-- **The transfer loops.**  Let the results of the reads and those of the writes end in 0 for ever
or in an error.  Then `bulk_read` returns and `usb_ffs_read` has the verdict of `readx`, and the
same for writing, exactly if all bytes come before the first 0 and the first error, or an error
comes before all bytes have come; and the first answer to a transfer of no bytes, the first result
that is not `EINTR`, is not an error. -/
theorem transfers_agree_iff {len : ℕ} (hlen : len < 2 ^ 31) {c : ℕ → ReadResult}
    (hc : (reading len).Ends c) {buf : List UInt8} (hbuf : buf.length < 2 ^ 31)
    {d : ℕ → WriteResult} (hd : (writing buf).Ends d) :
    (Agrees (readx len) (bulkRead len) (usbFfsRead len) (ReadExactly len c) c ↔
        (reading len).Settled c) ∧
      (Agrees (writex buf) (bulkWrite buf) (usbFfsWrite buf) (· = buf) d ↔
        (writing buf).Settled d) :=
  ⟨agrees_iff hlen hc fun _ _ => exactly_reading,
    agrees_iff hbuf hd fun _ rs _ => exactly_writing rs⟩

-- Nothing is asked for, and the one call of the bulk loop is interrupted before it fails.
example : usbFfsRead 0 [.intr, .fail] = some (-1, []) ∧ readx 0 [.intr, .fail] = some (0, []) := by
  decide

/-! ## A stalled and a settled sequence -/

/-- A descriptor that is at its end: every read returns 0. -/
def stalled : ℕ → ReadResult := fun _ => .data []

/-- `readx` of one byte fails at once and `bulk_read` never returns. -/
theorem stalled_disagree :
    (reading 1).Ends stalled ∧ Returns (readx 1) stalled (-1, []) ∧
      (∀ b, ¬Returns (bulkRead 1) stalled b) ∧
      ¬Agrees (readx 1) (bulkRead 1) (usbFfsRead 1) (ReadExactly 1 stalled) stalled := by
  have htotal : ∀ k, (reading 1).total (front stalled k) = 0 := by
    intro k
    induction k with
    | zero => rfl
    | succ k ih => rw [front_succ, total_append, ih]; rfl
  have hmore : ∀ b, ¬Returns (bulkRead 1) stalled b := by
    rintro b ⟨k, hk⟩
    have hnone : (reading 1).insistent [] (front stalled k) = none :=
      insistent_none (show ([] : List UInt8).length < (reading 1).len by decide)
        (forall_front fun i _ he => by cases he) (by rw [htotal]; decide)
    rw [bulkRead, bulk, hnone] at hk
    cases hk
  refine ⟨⟨0, .inr fun _ _ => rfl⟩, ⟨1, rfl⟩, hmore, ?_⟩
  rintro ⟨n, v, got, got', hbulk, -⟩
  exact hmore _ hbulk

/-- Three bytes are read in two pieces with an interruption between them; then errors. -/
def pieces : ℕ → ReadResult
  | 0 => .data [1]
  | 1 => .intr
  | 2 => .data [2, 3]
  | _ => .fail

/-- One of three bytes is written, then there is an error. -/
def broken : ℕ → WriteResult
  | 0 => .wrote 1
  | _ => .fail

theorem transfers_agree_pieces :
    Agrees (readx 3) (bulkRead 3) (usbFfsRead 3) (ReadExactly 3 pieces) pieces ∧
      Agrees (writex [1, 2, 3]) (bulkWrite [1, 2, 3]) (usbFfsWrite [1, 2, 3]) (· = [1, 2, 3])
        broken := by
  obtain ⟨hread, hwrite⟩ := transfers_agree_iff (show 3 < 2 ^ 31 by decide)
    (show (reading 3).Ends pieces from ⟨3, .inl rfl⟩)
    (show [1, 2, 3].length < 2 ^ 31 by decide)
    (show (writing [1, 2, 3]).Ends broken from ⟨1, .inl rfl⟩)
  constructor
  · exact hread.mpr ⟨fun h => absurd h (by decide), .inl ⟨3, by decide, by decide⟩⟩
  · exact hwrite.mpr ⟨fun h => absurd h (by decide), .inr ⟨1, rfl, by decide⟩⟩

end Adbd.BulkTransfer
