import Adbd.Model.FileSyncSpec

/-!
# What a pushed file leaves behind

`handle_send_file` unlinks its target and creates it; if the target is still there it writes
over it, and it cleans up after a failure with another `unlink`.  Two things go wrong when the
file system does not let it unlink.  The open that writes over an existing file does not truncate
it, so a longer old file keeps its tail behind the new data although the host reads `OKAY`.  And
what a failed transfer has written stays.

`Exact` is what a push should achieve: after an `OKAY` the file holds the payloads and nothing
else, otherwise it is absent or as it was.  `Clean` says when it does (`exact_iff`), in terms of
the outcomes of the calls, the bytes on the way and the old file alone.
-/

namespace Adbd.SyncSend

open Bytes Syscall Session

/-! ## What the outcomes of the calls come to -/

/-- The payloads of the `DATA` messages on the way, and whether a `DONE` ends them. -/
def blocks : ℕ → List ReadResult → List (List UInt8) × Bool
  | 0, _ => ([], false)
  | n + 1, input =>
    match readx 8 input with
    | (none, _) => ([], false)
    | (some hdr, input) =>
      if wordAt hdr 0 ≠ idData then ([], wordAt hdr 0 = idDone)
      else if syncDataMax < (wordAt hdr 1).toNat then ([], false)
      else
        match readx (wordAt hdr 1).toNat input with
        | (none, _) => ([], false)
        | (some bs, input) => (bs :: (blocks n input).1, (blocks n input).2)

/-- What the file system takes of the blocks, and whether that is all. -/
def taken : List (List UInt8) → List WriteResult → List UInt8 × Bool
  | [], _ => ([], true)
  | bs :: bss, writes =>
    match writex bs (writes ++ [.wrote bs.length]) with
    | (out, false, _) => (out, false)
    | (out, true, rest) => (out ++ (taken bss rest.dropLast).1, (taken bss rest.dropLast).2)

/-- Whether the `i`-th `unlink` of the session is let through. -/
def unlinks (i : ℕ) (s : Session) : Bool := (s.sys.unlinks[i]?).join.isNone

/-- What the path holds after the `unlink` of `do_send`. -/
def held (path : Path) (s : Session) : Option (List UInt8) :=
  if unlinks 0 s then none else s.sys.files path

/-- Creating a file at a path that holds `held`, where the call is to fail with `e`: what the
open file holds. -/
def create (held : Option (List UInt8)) (e : Option Errno) : Except Errno (List UInt8) :=
  match e with
  | some e => .error e
  | none => if held.isSome then .error .eexist else .ok []

/-- Opening the file as it is. -/
def reopen (held : Option (List UInt8)) (e : Option Errno) : Except Errno (List UInt8) :=
  match e with
  | some e => .error e
  | none => held.elim (.error .enoent) .ok

/-- What the target holds once it is open: it is created, after `ENOENT` once more, and opened
as it is after `EEXIST`. -/
def found (held : Option (List UInt8)) (opens : List (Option Errno)) : Except Errno (List UInt8) :=
  let (r, opens) := match create held opens.head?.join with
    | .error .enoent => (create held opens.tail.head?.join, opens.tail.tail)
    | r => (r, opens.tail)
  match r with
  | .error .eexist => reopen held opens.head?.join
  | r => r

/-- The blocks of the transfer and whether its `DONE` arrives. -/
def sent (s : Session) : List (List UInt8) × Bool := blocks s.rounds s.input

/-- What the file system takes of them, and whether that is all. -/
def written (s : Session) : List UInt8 × Bool := taken (sent s).1 s.sys.writes

/-- Whether the `OKAY` reaches the host. -/
def okayDelivered (s : Session) : Bool := (s.write (syncmsg [idOkay, 0])).1

/-- Whether the `FAIL` for the first failed write reaches the host. -/
def failDelivered (s : Session) : Bool := (s.failErrno (s.sys.writeErrnos.head?.getD (.other 0))).1

/-- Whether one of the `unlink`s that clean up is let through: the one after a failed write, and
the one after an input that breaks off, which is not reached if the `FAIL` cannot be written. -/
def cleaned (s : Session) : Bool :=
  if (written s).2 then !(sent s).2 && unlinks 1 s
  else unlinks 1 s || (failDelivered s && !(sent s).2 && unlinks 2 s)

/-- A file that held `c`, written over with `bs` from its start. -/
def overlay (bs c : List UInt8) : List UInt8 := bs ++ c.drop bs.length

/-! ## The property -/

/-- The `OKAY` of a transfer, and nothing else, has been written. -/
def Acked (s s' : Session) : Prop := s'.output = s.output ++ syncmsg [idOkay, 0]

/-- After an `OKAY` the target holds the payloads and nothing else; otherwise it is absent or
holds what it held before. -/
def Exact (name : Path) (s : Session) : Prop :=
  let path := (sendTarget name).1
  let s' := (s.doSend name).2
  (Acked s s' → s'.sys.files path = some (sent s).1.flatten) ∧
    (¬Acked s s' → s'.sys.files path = none ∨ s'.sys.files path = s.sys.files path)

/-- If the target is opened and everything arrives, is written and acknowledged, then it held no
more than what is written; if it is opened and something goes wrong, then a clean-up `unlink`
is let through, or what was written leaves the old content. -/
def Clean (name : Path) (s : Session) : Prop :=
  let path := (sendTarget name).1
  ∀ c, found (held path s) s.sys.opens = .ok c →
    if (sent s).2 && (written s).2 && okayDelivered s then c.length ≤ (written s).1.length
    else cleaned s = true ∨ some (overlay (written s).1 c) = s.sys.files path

/-! ## Opening the target -/

/-- Everything but the files, the buffer and the script of `open` is as it was. -/
structure Opened (s s' : Session) : Prop where
  wired : Wired s s' := by exact {}
  unlinks : s'.sys.unlinks = s.sys.unlinks := by rfl
  writes : s'.sys.writes = s.sys.writes := by rfl
  writeErrnos : s'.sys.writeErrnos = s.sys.writeErrnos := by rfl
  strerror : s'.sys.strerror = s.sys.strerror := by rfl

lemma Opened.trans {s s' s'' : Session} (h : Opened s s') (h' : Opened s' s'') : Opened s s'' :=
  ⟨h.wired.trans h'.wired, h'.unlinks.trans h.unlinks, h'.writes.trans h.writes,
    h'.writeErrnos.trans h.writeErrnos, h'.strerror.trans h.strerror⟩

/-- The outcome of an `open` of the target: the result is `r`, and the path holds what the
opened file holds, or `held` as before. -/
structure Attempt (path : Path) (held : Option (List UInt8)) (r : Except Errno (List UInt8))
    (s : Session) (q : Except Errno Unit × Session) : Prop where
  result : q.1 = r.map fun _ => ()
  opened : Opened s q.2
  holds : q.2.sys.files path = r.toOption.or held

lemma attempt_openCreate {path : Path} {s : Session} {held : Option (List UInt8)}
    {opens : List (Option Errno)} (hf : s.sys.files path = held) (ho : s.sys.opens = opens) :
    Attempt path held (create held opens.head?.join) s (s.openCreate path) ∧
      (s.openCreate path).2.sys.opens = opens.tail := by
  subst hf ho
  unfold openCreate nextOpen create
  cases s.sys.opens.head?.join with
  | some e => exact ⟨⟨rfl, {}, rfl⟩, rfl⟩
  | none =>
    dsimp only
    cases hf : s.sys.files path with
    | some c => exact ⟨⟨rfl, {}, hf⟩, rfl⟩
    | none => exact ⟨⟨rfl, {}, if_pos rfl⟩, rfl⟩

lemma attempt_openExisting {path : Path} {s : Session} {held : Option (List UInt8)}
    {opens : List (Option Errno)} (hf : s.sys.files path = held) (ho : s.sys.opens = opens) :
    Attempt path held (reopen held opens.head?.join) s (s.openExisting path) := by
  subst hf ho
  unfold openExisting nextOpen reopen
  cases s.sys.opens.head?.join with
  | some e => exact ⟨rfl, {}, rfl⟩
  | none =>
    dsimp only
    cases hf : s.sys.files path with
    | some c => exact ⟨rfl, {}, hf⟩
    | none => exact ⟨rfl, {}, hf⟩

/-- An outcome is the error `e` exactly when the result of the call is. -/
lemma Attempt.error_iff {path : Path} {held : Option (List UInt8)} {e : Errno} {s s' : Session}
    {r : Except Errno (List UInt8)} {r' : Except Errno Unit} (h : Attempt path held r s (r', s')) :
    r' = .error e ↔ r = .error e := by
  have hr : r' = r.map fun _ => () := h.result
  rw [hr]
  cases r with
  | error e' => simp [Except.map]
  | ok c => simp [Except.map]

/-- **The three attempts come to what `found` says.** -/
lemma attempt_openTarget (path : Path) (s : Session) :
    Attempt path (s.sys.files path) (found (s.sys.files path) s.sys.opens) s
      (s.openTarget path) := by
  generalize hf : s.sys.files path = held
  generalize ho : s.sys.opens = opens
  -- the second attempt
  have hsecond : let second := match create held opens.head?.join with
        | .error .enoent => (create held opens.tail.head?.join, opens.tail.tail)
        | r => (r, opens.tail)
      Attempt path held second.1 s (createAgain path (s.openCreate path)) ∧
        (createAgain path (s.openCreate path)).2.sys.opens = second.2 := by
    intro second
    obtain ⟨h₁, ho₁⟩ := attempt_openCreate hf ho
    generalize s.openCreate path = q₁ at h₁ ho₁ ⊢
    obtain ⟨r₁, s₁⟩ := q₁
    by_cases hagain : create held opens.head?.join = .error .enoent
    · obtain rfl := h₁.error_iff.mpr hagain
      have hs₁ : s₁.sys.files path = held := by
        rw [h₁.holds, hagain]
        rfl
      obtain ⟨ok, rest, hm⟩ := mkdirs_eq path s₁
      change Attempt path held second.1 s ((s₁.mkdirs path).2.openCreate path) ∧
        ((s₁.mkdirs path).2.openCreate path).2.sys.opens = second.2
      have hmade : Opened s₁ (s₁.mkdirs path).2 := by
        rw [hm]
        exact {}
      have hfm : (s₁.mkdirs path).2.sys.files path = held := by
        rw [hm]
        exact hs₁
      have hom : (s₁.mkdirs path).2.sys.opens = opens.tail := by
        rw [hm]
        exact ho₁
      obtain ⟨h₂, ho₂⟩ := attempt_openCreate hfm hom
      have hsec : second = (create held opens.tail.head?.join, opens.tail.tail) := by
        simp only [second, hagain]
      rw [hsec]
      exact ⟨⟨h₂.result, h₁.opened.trans (hmade.trans h₂.opened), h₂.holds⟩, ho₂⟩
    · have hkeep : createAgain path (r₁, s₁) = (r₁, s₁) := by
        unfold createAgain
        split
        · next heq => exact absurd (h₁.error_iff.mp (Prod.mk.inj heq).1) hagain
        · rfl
      have hsec : second = (create held opens.head?.join, opens.tail) := by
        simp only [second]
      rw [hkeep, hsec]
      exact ⟨h₁, ho₁⟩
  unfold openTarget found
  revert hsecond
  generalize (match create held opens.head?.join with
    | .error .enoent => (create held opens.tail.head?.join, opens.tail.tail)
    | r => (r, opens.tail)) = second
  obtain ⟨r, rest⟩ := second
  rintro ⟨h₂, ho₂⟩
  -- the third attempt
  generalize createAgain path (s.openCreate path) = q₂ at h₂ ho₂ ⊢
  obtain ⟨r₂, s₂⟩ := q₂
  dsimp only at h₂ ho₂ ⊢
  by_cases hthird : r = .error .eexist
  · obtain rfl := h₂.error_iff.mpr hthird
    have hs₂ : s₂.sys.files path = held := by
      rw [h₂.holds, hthird]
      rfl
    rw [hthird]
    have h₃ := attempt_openExisting hs₂ ho₂
    exact ⟨h₃.result, h₂.opened.trans h₃.opened, h₃.holds⟩
  · have hkeep : openAgain path (r₂, s₂) = (r₂, s₂) := by
      unfold openAgain
      split
      · next heq => exact absurd (h₂.error_iff.mp (Prod.mk.inj heq).1) hthird
      · rfl
    rw [hkeep]
    split
    · next h => exact absurd rfl hthird
    · exact h₂

/-! ## What is said to the host -/

/-- Nothing, or something that begins like a `FAIL`. -/
def Refusal (bs : List UInt8) : Prop := bs = [] ∨ bs.head? = some 0x46

lemma Refusal.append {bs cs : List UInt8} (h : Refusal bs) (h' : Refusal cs) :
    Refusal (bs ++ cs) := by
  rcases h with rfl | h
  · exact h'
  · right
    rw [List.head?_append, h]
    rfl

lemma not_refusal_okay : ¬Refusal (syncmsg [idOkay, 0]) := by
  unfold Refusal
  decide

/-- Only the connection to the host has changed, and at most by a `FAIL`. -/
structure Grumbled (s s' : Session) : Prop where
  sys : s'.sys = s.sys
  said : ∃ bs, s'.output = s.output ++ bs ∧ Refusal bs

lemma Grumbled.refl (s : Session) : Grumbled s s := ⟨rfl, [], by simp, .inl rfl⟩

lemma Grumbled.trans {s s' s'' : Session} (h : Grumbled s s') (h' : Grumbled s' s'') :
    Grumbled s s'' := by
  obtain ⟨bs, hbs, hr⟩ := h.said
  obtain ⟨cs, hcs, hr'⟩ := h'.said
  exact ⟨h'.sys.trans h.sys, bs ++ cs, by rw [hcs, hbs, List.append_assoc], hr.append hr'⟩

/-- What a write emits is a prefix of what it is given, and the whole if it succeeds. -/
lemma write_eq {s s' : Session} {bs : List UInt8} {ok : Bool} (h : s.write bs = (ok, s')) :
    s'.sys = s.sys ∧ ∃ out, s'.output = s.output ++ out ∧ out <+: bs ∧ (ok = true → out = bs) := by
  unfold write at h
  cases hw : writex bs (s.replies ++ [.wrote bs.length]) with
  | mk out q =>
    obtain ⟨ok', rest⟩ := q
    rw [hw] at h
    cases h
    refine ⟨rfl, out, rfl, writeFull_prefix hw, fun hok => ?_⟩
    rw [hok] at hw
    exact writeFull_ok hw

lemma input_failMessage (reason : List UInt8) (s : Session) :
    (s.failMessage reason).2.input = s.input := by
  have hwrite : ∀ {bs : List UInt8} {s s' : Session} {ok : Bool},
      s.write bs = (ok, s') → s'.input = s.input := fun h =>
    congrArg (fun q : Bool × Session => q.2.input) h.symm
  unfold failMessage
  split
  · next h => exact hwrite h
  · next s' h => exact (hwrite (Prod.mk.eta : _ = s'.write reason).symm).trans (hwrite h)

lemma grumbled_failMessage (reason : List UInt8) (s : Session) :
    Grumbled s (s.failMessage reason).2 := by
  have hhead : ∀ out, out <+: syncmsg [idFail, UInt32.ofNat reason.length] → Refusal out := by
    intro out hout
    cases out with
    | nil => exact .inl rfl
    | cons b bs =>
      obtain ⟨d, hd⟩ := hout
      exact .inr (congrArg List.head? hd)
  unfold failMessage
  split
  · next s' h =>
    obtain ⟨hsys, out, hout, hpre, -⟩ := write_eq h
    exact ⟨hsys, out, hout, hhead out hpre⟩
  · next s' h =>
    obtain ⟨hsys, out, hout, -, hall⟩ := write_eq h
    obtain ⟨hsys', out', hout', -, -⟩ := write_eq (Prod.mk.eta : _ = s'.write reason).symm
    refine ⟨hsys'.trans hsys, out ++ out', ?_, .inr ?_⟩
    · rw [hout', hout, List.append_assoc]
    rw [hall rfl]
    rfl

/-! ## The loop -/

/-- Only the input and the buffer have changed. -/
structure Received (s s' : Session) : Prop where
  sys : s'.sys = s.sys
  replies : s'.replies = s.replies
  output : s'.output = s.output

lemma Received.trans {s s' s'' : Session} (h : Received s s') (h' : Received s' s'') :
    Received s s'' :=
  ⟨h'.sys.trans h.sys, h'.replies.trans h.replies, h'.output.trans h.output⟩

lemma Received.grumbled {s s' : Session} (h : Received s s') : Grumbled s s' :=
  ⟨h.sys, [], by rw [h.output, List.append_nil], .inl rfl⟩

lemma read_eq (n : ℕ) (s : Session) :
    ∃ s', s.read n = ((readx n s.input).1, s') ∧ s'.input = (readx n s.input).2 ∧
      Received s s' :=
  ⟨_, rfl, rfl, rfl, rfl, rfl⟩

lemma readBuffer_eq (n : ℕ) (s : Session) :
    ∃ s', s.readBuffer n = ((readx n s.input).1, s') ∧ s'.input = (readx n s.input).2 ∧
      Received s s' := by
  obtain ⟨s₁, hr, hi, hs⟩ := read_eq n s
  unfold readBuffer
  rw [hr]
  cases (readx n s.input).1 with
  | none => exact ⟨s₁, rfl, hi, hs⟩
  | some bs => exact ⟨_, rfl, hi, hs.sys, hs.replies, hs.output⟩

/-- How the loop is left when nothing more is written: `break` after a `DONE`. -/
def exitOf (done : Bool) (fd : Option ℕ) : SendExit := if done then .done fd else .fail fd

/-- What the loop does with a block it has read to the buffer. -/
def storeBlock (path : Path) (n : ℕ) (fd : Option ℕ) (bs : List UInt8) (s : Session) :
    SendExit × Session :=
  match fd with
  | none => sendFileLoop path n none s
  | some off =>
    match s.writeFile path off bs with
    | (none, s) => sendFileLoop path n (some (off + bs.length)) s
    | (some e, s) =>
      match (s.unlink path).failErrno e with
      | (false, s) => (.ret, s)
      | (true, s) => sendFileLoop path n none s

/-- A round of the loop is its last, or gets one block. -/
lemma round_cases (path : Path) (n : ℕ) (fd : Option ℕ) (s : Session) :
    (∃ done s', blocks (n + 1) s.input = ([], done) ∧
        sendFileLoop path (n + 1) fd s = (exitOf done fd, s') ∧ Grumbled s s' ∧
        (done = true → Received s s')) ∨
      ∃ bs s', blocks (n + 1) s.input = (bs :: (blocks n s'.input).1, (blocks n s'.input).2) ∧
        sendFileLoop path (n + 1) fd s = storeBlock path n fd bs s' ∧ Received s s' := by
  obtain ⟨s₁, hr₁, hi₁, hs₁⟩ := read_eq 8 s
  rw [sendFileLoop, blocks, hr₁]
  cases hx : readx 8 s.input with
  | mk r i =>
    rw [hx] at hi₁
    cases r with
    | none => exact .inl ⟨false, s₁, rfl, rfl, hs₁.grumbled, nofun⟩
    | some hdr =>
      dsimp only
      by_cases hdata : wordAt hdr 0 ≠ idData
      · rw [if_pos hdata, if_pos hdata]
        left
        by_cases hdone : wordAt hdr 0 = idDone
        · rw [if_pos hdone]
          exact ⟨true, s₁, by simp [hdone], rfl, hs₁.grumbled, fun _ => hs₁⟩
        · rw [if_neg hdone]
          exact ⟨false, _, by simp [hdone], rfl,
            hs₁.grumbled.trans (grumbled_failMessage _ s₁), nofun⟩
      rw [if_neg hdata, if_neg hdata]
      by_cases hbig : syncDataMax < (wordAt hdr 1).toNat
      · rw [if_pos hbig, if_pos hbig]
        exact .inl ⟨false, _, rfl, rfl, hs₁.grumbled.trans (grumbled_failMessage _ s₁), nofun⟩
      rw [if_neg hbig, if_neg hbig]
      obtain ⟨s₂, hr₂, hi₂, hs₂⟩ := readBuffer_eq (wordAt hdr 1).toNat s₁
      rw [hr₂]
      rw [hi₁] at hi₂
      cases hy : readx (wordAt hdr 1).toNat i with
      | mk r j =>
        rw [hi₁, hy]
        rw [hy] at hi₂
        cases r with
        | none => exact .inl ⟨false, s₂, rfl, rfl, (hs₁.trans hs₂).grumbled, nofun⟩
        | some bs => exact .inr ⟨bs, s₂, by rw [hi₂], rfl, hs₁.trans hs₂⟩

/-- With the file closed the loop only takes its messages off the input. -/
lemma loop_closed (path : Path) (n : ℕ) (s : Session) :
    ∃ s', sendFileLoop path n none s = (exitOf (blocks n s.input).2 none, s') ∧
      Grumbled s s' := by
  induction n generalizing s with
  | zero => exact ⟨s, rfl, .refl s⟩
  | succ n ih =>
    rcases round_cases path n none s with ⟨done, s', hb, hl, hg, -⟩ | ⟨bs, s', hb, hl, hs⟩
    · exact ⟨s', by rw [hl, hb], hg⟩
    · obtain ⟨s'', hl', hg⟩ := ih s'
      exact ⟨s'', by rw [hl, hb]; exact hl', hs.grumbled.trans hg⟩

/-! ## Writing to the file -/

/-- Only the file and the scripts of its writes have changed, and the file holds `c`. -/
structure Stored (path : Path) (c : List UInt8) (s s' : Session) : Prop where
  files : s'.sys.files path = some c
  input : s'.input = s.input := by rfl
  replies : s'.replies = s.replies := by rfl
  output : s'.output = s.output := by rfl
  unlinks : s'.sys.unlinks = s.sys.unlinks := by rfl
  strerror : s'.sys.strerror = s.sys.strerror := by rfl

/-- The file holds `bs` over `c` up to the offset; what the file system takes is appended. -/
lemma writeFile_over {path : Path} {bs w c : List UInt8} {s : Session}
    (hf : s.sys.files path = some (overlay w c)) {out : List UInt8} {ok : Bool}
    {rest : List WriteResult}
    (hw : writex bs (s.sys.writes ++ [.wrote bs.length]) = (out, ok, rest)) :
    ∃ s', s.writeFile path w.length bs =
        (if ok then none else some (s.sys.writeErrnos.head?.getD (.other 0)), s') ∧
      Stored path (overlay (w ++ out) c) s s' ∧
      (ok = true → out = bs ∧ s'.sys.writes = rest.dropLast ∧
        s'.sys.writeErrnos = s.sys.writeErrnos) := by
  have hoverlay : (overlay w c).take w.length ++ out ++ (overlay w c).drop (w.length + out.length) =
      overlay (w ++ out) c := by
    rw [overlay, overlay, List.take_left, List.drop_append, List.drop_of_length_le (by omega),
      List.nil_append, List.drop_drop, List.length_append]
    congr 2
    omega
  have hfile : (if path = path then
      some (((s.sys.files path).getD []).take w.length ++ out ++
        ((s.sys.files path).getD []).drop (w.length + out.length))
      else s.sys.files path) = some (overlay (w ++ out) c) := by
    rw [if_pos rfl, hf, Option.getD_some, hoverlay]
  unfold writeFile
  rw [hw]
  cases ok with
  | true => exact ⟨_, rfl, { files := hfile }, fun _ => ⟨writeFull_ok hw, rfl, rfl⟩⟩
  | false => exact ⟨_, rfl, { files := hfile }, nofun⟩

/-- Whether an `unlink` succeeds, and what it leaves. -/
lemma unlink_eq (path : Path) (s : Session) :
    (s.unlink path).sys.unlinks = s.sys.unlinks.tail ∧
      (s.unlink path).sys.files path = (if unlinks 0 s then none else s.sys.files path) ∧
      Wired s (s.unlink path) ∧ (s.unlink path).sys.opens = s.sys.opens ∧
      (s.unlink path).sys.writes = s.sys.writes ∧
      (s.unlink path).sys.writeErrnos = s.sys.writeErrnos ∧
      (s.unlink path).sys.strerror = s.sys.strerror := by
  unfold unlink unlinks
  rw [← List.head?_eq_getElem?]
  cases s.sys.unlinks.head?.join with
  | some e => exact ⟨rfl, rfl, {}, rfl, rfl, rfl, rfl⟩
  | none => exact ⟨rfl, if_pos rfl, {}, rfl, rfl, rfl, rfl⟩

/-- Whether a reply is delivered depends on the connection alone. -/
lemma failErrno_congr {s s' : Session} (e : Errno) (hr : s'.replies = s.replies)
    (ht : s'.sys.strerror = s.sys.strerror) : (s'.failErrno e).1 = (s.failErrno e).1 := by
  unfold failErrno failMessage Session.write
  rw [hr, ht]
  generalize (s.sys.strerror e).text = reason
  cases writex (syncmsg [idFail, UInt32.ofNat reason.length])
      (s.replies ++ [.wrote (syncmsg [idFail, UInt32.ofNat reason.length]).length]) with
  | mk out q =>
    obtain ⟨ok, rest⟩ := q
    cases ok <;> rfl

/-! ## The loop with the file open -/

/-- How the loop ends if everything that arrives is written. -/
structure Complete (path : Path) (c w : List UInt8) (s : Session) (bss : List (List UInt8) × Bool)
    (q : SendExit × Session) : Prop where
  exit : ∃ off, q.1 = exitOf bss.2 (some off)
  files : q.2.sys.files path = some (overlay (w ++ (taken bss.1 s.sys.writes).1) c)
  unlinks : q.2.sys.unlinks = s.sys.unlinks
  said : ∃ bs, q.2.output = s.output ++ bs ∧ Refusal bs
  quiet : bss.2 = true → q.2.replies = s.replies ∧ q.2.output = s.output

/-- How the loop ends if a write fails: the file is unlinked, and the rest of the transfer
swallowed if the `FAIL` gets through. -/
structure Broken (path : Path) (c w : List UInt8) (s : Session) (bss : List (List UInt8) × Bool)
    (q : SendExit × Session) : Prop where
  exit : q.1 = if failDelivered s then exitOf bss.2 none else .ret
  files : q.2.sys.files path =
    if unlinks 0 s then none else some (overlay (w ++ (taken bss.1 s.sys.writes).1) c)
  unlinks : q.2.sys.unlinks = s.sys.unlinks.tail
  said : ∃ bs, q.2.output = s.output ++ bs ∧ Refusal bs

lemma loop_open (path : Path) (c : List UInt8) (n : ℕ) (w : List UInt8) (s : Session)
    (hf : s.sys.files path = some (overlay w c)) :
    if (taken (blocks n s.input).1 s.sys.writes).2 then
      Complete path c w s (blocks n s.input) (sendFileLoop path n (some w.length) s)
    else Broken path c w s (blocks n s.input) (sendFileLoop path n (some w.length) s) := by
  induction n generalizing s w with
  | zero =>
    refine ⟨⟨_, rfl⟩, ?_, rfl, ⟨[], (List.append_nil _).symm, .inl rfl⟩, nofun⟩
    rw [blocks, taken, List.append_nil]
    exact hf
  | succ n ih =>
    rcases round_cases path n (some w.length) s with
      ⟨done, s', hb, hl, hg, hdone⟩ | ⟨bs, s₁, hb, hl, hs₁⟩
    · -- the last round
      rw [hb, hl]
      refine ⟨⟨_, rfl⟩, ?_, ?_, hg.said, fun hd => ⟨(hdone hd).replies, (hdone hd).output⟩⟩
      · rw [hg.sys, hf, taken, List.append_nil]
      · rw [hg.sys]
    · -- a block
      rw [hb, hl, storeBlock, taken, ← hs₁.sys]
      cases hw : writex bs (s₁.sys.writes ++ [.wrote bs.length]) with
      | mk out r =>
        obtain ⟨ok, rest⟩ := r
        have hf₁ : s₁.sys.files path = some (overlay w c) := by rw [hs₁.sys, hf]
        obtain ⟨s₂, hwf, hst, hok⟩ := writeFile_over hf₁ hw
        have hout : s₂.output = s.output := hst.output.trans hs₁.output
        have hrep : s₂.replies = s.replies := hst.replies.trans hs₁.replies
        have herr : s₂.sys.strerror = s.sys.strerror := by rw [hst.strerror, hs₁.sys]
        have hun : s₂.sys.unlinks = s.sys.unlinks := by rw [hst.unlinks, hs₁.sys]
        rw [hwf]
        cases ok with
        | true =>
          -- it is written, and the loop goes on
          obtain ⟨rfl, hws, hes⟩ := hok rfl
          have htaken : taken (out :: (blocks n s₁.input).1) s.sys.writes =
              (out ++ (taken (blocks n s₁.input).1 rest.dropLast).1,
                (taken (blocks n s₁.input).1 rest.dropLast).2) := by
            rw [taken, ← hs₁.sys, hw]
          have hrest := ih (w ++ out) s₂ hst.files
          rw [hws, hst.input, List.length_append] at hrest
          have hfd : failDelivered s₂ = failDelivered s := by
            unfold failDelivered
            rw [hes, hs₁.sys]
            exact failErrno_congr _ hrep herr
          dsimp only [if_true]
          by_cases hall : (taken (blocks n s₁.input).1 rest.dropLast).2 = true
          · rw [if_pos hall] at hrest ⊢
            refine ⟨hrest.exit, ?_, hrest.unlinks.trans hun, ?_, fun hd => ?_⟩
            · rw [htaken, ← List.append_assoc, ← hws]
              exact hrest.files
            · rw [← hout]
              exact hrest.said
            · exact ⟨(hrest.quiet hd).1.trans hrep, (hrest.quiet hd).2.trans hout⟩
          · rw [if_neg hall] at hrest ⊢
            refine ⟨?_, ?_, ?_, ?_⟩
            · rw [← hfd]
              exact hrest.exit
            · rw [htaken, ← List.append_assoc, ← hws]
              unfold unlinks
              rw [← hun]
              exact hrest.files
            · rw [← hun]
              exact hrest.unlinks
            · rw [← hout]
              exact hrest.said
        | false =>
          -- the write fails: the file is unlinked, and the rest is swallowed
          have htaken : taken (bs :: (blocks n s₁.input).1) s.sys.writes = (out, false) := by
            rw [taken, ← hs₁.sys, hw]
          obtain ⟨hut, huf, huw, -, -, -, hus⟩ := unlink_eq path s₂
          have hg := grumbled_failMessage
            ((s₂.unlink path).sys.strerror (s₁.sys.writeErrnos.head?.getD (.other 0))).text
            (s₂.unlink path)
          have hfd : ((s₂.unlink path).failErrno (s₁.sys.writeErrnos.head?.getD (.other 0))).1 =
              failDelivered s := by
            unfold failDelivered
            rw [hs₁.sys]
            exact failErrno_congr _ (huw.replies.trans hrep) (hus.trans herr)
          have hun' : unlinks 0 s₂ = unlinks 0 s := by
            unfold unlinks
            rw [hun]
          have hsaid : ∀ {s' : Session}, Grumbled (s₂.unlink path) s' →
              ∃ bs, s'.output = s.output ++ bs ∧ Refusal bs := by
            intro s' hs'
            rw [← hout, ← huw.output]
            exact hs'.said
          simp only [Bool.false_eq_true, if_false]
          change Grumbled (s₂.unlink path)
            ((s₂.unlink path).failErrno (s₁.sys.writeErrnos.head?.getD (.other 0))).2 at hg
          cases he : (s₂.unlink path).failErrno (s₁.sys.writeErrnos.head?.getD (.other 0)) with
          | mk delivered s₄ =>
            rw [he] at hfd hg
            have hfile : ∀ {s' : Session}, s'.sys = (s₂.unlink path).sys →
                s'.sys.files path = if unlinks 0 s then none else some (overlay (w ++ out) c) := by
              intro s' hs'
              rw [hs', huf, hun', hst.files]
            cases delivered with
            | false =>
              refine ⟨by rw [← hfd]; rfl, ?_, ?_, hsaid hg⟩
              · rw [htaken]
                exact hfile hg.sys
              · rw [hg.sys, hut, hun]
            | true =>
              obtain ⟨s₅, hl₅, hg₅⟩ := loop_closed path n s₄
              have hi : s₄.input = s₁.input := by
                have h := input_failMessage
                  ((s₂.unlink path).sys.strerror (s₁.sys.writeErrnos.head?.getD (.other 0))).text
                  (s₂.unlink path)
                change ((s₂.unlink path).failErrno _).2.input = _ at h
                rw [he] at h
                exact h.trans (huw.input.trans hst.input)
              rw [hi] at hl₅
              change Broken path c w s _ (sendFileLoop path n none s₄)
              rw [hl₅]
              refine ⟨by rw [← hfd]; rfl, ?_, ?_, hsaid (hg.trans hg₅)⟩
              · rw [htaken]
                exact hfile (hg₅.sys.trans hg.sys)
              · rw [hg₅.sys, hg.sys, hut, hun]

/-! ## The whole request -/

lemma taken_all {bss : List (List UInt8)} {writes : List WriteResult}
    (h : (taken bss writes).2 = true) : (taken bss writes).1 = bss.flatten := by
  induction bss generalizing writes with
  | nil => rfl
  | cons bs bss ih =>
    unfold taken at h ⊢
    cases hw : writex bs (writes ++ [.wrote bs.length]) with
    | mk out r =>
      obtain ⟨ok, rest⟩ := r
      rw [hw] at h
      cases ok with
      | true =>
        change out ++ (taken bss rest.dropLast).1 = _
        rw [ih h, writeFull_ok hw, List.flatten_cons]
      | false => exact absurd h Bool.false_ne_true

/-- What a request leaves behind when its target is opened. -/
structure Pushed (path : Path) (c : List UInt8) (s s' : Session) : Prop where
  files : s'.sys.files path = if cleaned s then none else some (overlay (written s).1 c)
  acked : Acked s s' ↔ ((sent s).2 && (written s).2 && okayDelivered s) = true

lemma not_acked {s s' : Session} (h : ∃ bs, s'.output = s.output ++ bs ∧ Refusal bs) :
    ¬Acked s s' := by
  obtain ⟨bs, hbs, hr⟩ := h
  intro hacked
  rw [Acked, hbs, List.append_cancel_left_eq] at hacked
  exact not_refusal_okay (hacked ▸ hr)

/-- The `OKAY` counts as written when it was delivered. -/
lemma write_okay {s s₃ : Session} (hout : s₃.output = s.output) (hrep : s₃.replies = s.replies) :
    Acked s (s₃.write (syncmsg [idOkay, 0])).2 ↔ okayDelivered s = true := by
  have hdel : okayDelivered s = (writex (syncmsg [idOkay, 0])
      (s₃.replies ++ [.wrote (syncmsg [idOkay, 0]).length])).2.1 := by
    rw [hrep]
    rfl
  have hsaid : (s₃.write (syncmsg [idOkay, 0])).2.output = s₃.output ++
      (writex (syncmsg [idOkay, 0])
        (s₃.replies ++ [.wrote (syncmsg [idOkay, 0]).length])).1 := rfl
  rw [Acked, hsaid, hdel, hout, List.append_cancel_left_eq]
  cases hw : writex (syncmsg [idOkay, 0])
      (s₃.replies ++ [.wrote (syncmsg [idOkay, 0]).length]) with
  | mk out r =>
    obtain ⟨ok, rest⟩ := r
    cases ok with
    | true => exact iff_of_true (writeFull_ok hw) rfl
    | false => exact iff_of_false (writeFull_failed hw) Bool.false_ne_true

/-- A request whose target is opened, whatever becomes of it. -/
lemma pushed_of_opened {path : Path} {c : List UInt8} {s s₂ : Session}
    (hop : Opened (s.unlink path) s₂) (hf : s₂.sys.files path = some c) :
    Pushed path c s (sendFileEnd path (sendFileLoop path s₂.rounds (some 0) s₂)).2 := by
  obtain ⟨hut, -, huw, -, huws, hue, hus⟩ := unlink_eq path s
  have hw := huw.trans hop.wired
  have hbss : blocks s₂.rounds s₂.input = sent s := by
    rw [sent, rounds, rounds, hw.input]
  have htaken : taken (sent s).1 s₂.sys.writes = written s := by
    rw [written, hop.writes, huws]
  have hun : s₂.sys.unlinks = s.sys.unlinks.tail := hop.unlinks.trans hut
  have hun₀ : unlinks 0 s₂ = unlinks 1 s := by
    unfold unlinks
    rw [hun, List.getElem?_tail]
  have hfd : failDelivered s₂ = failDelivered s := by
    unfold failDelivered
    rw [hop.writeErrnos, hue]
    exact failErrno_congr _ hw.replies (hop.strerror.trans hus)
  have hloop := loop_open path c s₂.rounds [] s₂ (by rw [hf]; rfl)
  rw [hbss, htaken, List.length_nil] at hloop
  generalize sendFileLoop path s₂.rounds (some 0) s₂ = q at hloop ⊢
  obtain ⟨exit, s₃⟩ := q
  have hsaid : ∀ {s' : Session}, (∃ bs, s'.output = s₂.output ++ bs ∧ Refusal bs) →
      ¬Acked s s' := by
    intro s' h
    rw [hw.output] at h
    exact not_acked h
  by_cases hall : (written s).2 = true
  · rw [if_pos hall] at hloop
    obtain ⟨off, hexit⟩ := hloop.exit
    obtain rfl : exit = exitOf (sent s).2 (some off) := hexit
    have hfile : s₃.sys.files path = some (overlay (written s).1 c) := by
      rw [hloop.files, htaken, List.nil_append]
    cases hdone : (sent s).2 with
    | true =>
      -- everything is written: the `OKAY`
      have hcl : cleaned s = false := by simp [cleaned, hall, hdone]
      obtain ⟨hrep, hout⟩ := hloop.quiet hdone
      refine ⟨?_, ?_⟩
      · rw [hcl]
        exact hfile
      · rw [hdone, hall]
        exact write_okay (hout.trans hw.output) (hrep.trans hw.replies)
    | false =>
      -- the input breaks off: one `unlink`
      have hcl : cleaned s = unlinks 1 s := by simp [cleaned, hall, hdone]
      obtain ⟨-, huf, huw', -⟩ := unlink_eq path s₃
      have hun₃ : unlinks 0 s₃ = unlinks 1 s := by
        rw [← hun₀]
        unfold unlinks
        rw [hloop.unlinks]
      refine ⟨?_, iff_of_false ?_ (by rw [hdone]; exact Bool.false_ne_true)⟩
      · rw [hcl, ← hun₃, ← hfile]
        exact huf
      · apply hsaid
        change ∃ bs, (s₃.unlink path).output = _ ∧ _
        rw [huw'.output]
        exact hloop.said
  · rw [if_neg hall] at hloop
    have hfile : s₃.sys.files path =
        if unlinks 1 s then none else some (overlay (written s).1 c) := by
      rw [hloop.files, htaken, hun₀, List.nil_append]
    have hnot : ¬((sent s).2 && (written s).2 && okayDelivered s) = true := by
      simp [hall]
    have hexit := hloop.exit
    dsimp only at hexit
    by_cases hlast : (failDelivered s && !(sent s).2) = true
    · -- the rest of the input breaks off as well: another `unlink`
      obtain ⟨hdel, hdone⟩ := Bool.and_eq_true_iff.mp hlast
      rw [hfd, hdel, if_pos rfl, exitOf, if_neg (by simpa using hdone)] at hexit
      subst hexit
      have hcl : cleaned s = (unlinks 1 s || unlinks 2 s) := by
        simp [cleaned, hall, hdel, hdone]
      obtain ⟨-, huf, huw', -⟩ := unlink_eq path s₃
      have hun₃ : unlinks 0 s₃ = unlinks 2 s := by
        unfold unlinks
        rw [hloop.unlinks, hun, List.getElem?_tail, List.getElem?_tail]
      refine ⟨?_, iff_of_false ?_ hnot⟩
      · change (s₃.unlink path).sys.files path = _
        rw [huf, hun₃, hfile, hcl]
        cases unlinks 1 s <;> cases unlinks 2 s <;> rfl
      · apply hsaid
        change ∃ bs, (s₃.unlink path).output = _ ∧ _
        rw [huw'.output]
        exact hloop.said
    · have hcl : cleaned s = unlinks 1 s := by
        simp [cleaned, hall, hlast]
      have hend : ∃ ok, sendFileEnd path (exit, s₃) = (ok, s₃) := by
        rw [hexit, hfd]
        by_cases hdel : failDelivered s = true
        · have hdone : (sent s).2 = true := by simpa [hdel] using hlast
          rw [if_pos hdel, hdone]
          exact ⟨true, rfl⟩
        · rw [if_neg hdel]
          exact ⟨false, rfl⟩
      obtain ⟨ok, hend⟩ := hend
      rw [hend]
      exact ⟨by rw [hcl]; exact hfile, iff_of_false (hsaid hloop.said) hnot⟩

/-- A request whose target cannot be opened touches no file but by an `unlink`. -/
lemma kept_of_not_opened {path : Path} {e : Errno} {s s₂ : Session}
    (hop : Opened (s.unlink path) s₂) (ho : (s.unlink path).openTarget path = (.error e, s₂)) :
    ¬Acked s ((s.unlink path).handleSendFile path).2 ∧
      (((s.unlink path).handleSendFile path).2.sys.files path = s₂.sys.files path ∨
        ((s.unlink path).handleSendFile path).2.sys.files path = none) := by
  have hw := (unlink_eq path s).2.2.1.trans hop.wired
  have hg : Grumbled s₂ (s₂.failErrno e).2 := grumbled_failMessage _ s₂
  have hkept : ∀ {s' : Session}, Grumbled s₂ s' →
      ¬Acked s s' ∧ (s'.sys.files path = s₂.sys.files path ∨ s'.sys.files path = none) := by
    intro s' hs'
    have hsaid := hs'.said
    rw [hw.output] at hsaid
    exact ⟨not_acked hsaid, .inl (by rw [hs'.sys])⟩
  unfold handleSendFile
  rw [ho]
  dsimp only
  cases hf : s₂.failErrno e with
  | mk delivered s₃ =>
    rw [hf] at hg
    cases delivered with
    | false => exact hkept hg
    | true =>
      obtain ⟨s₄, hl, hg₄⟩ := loop_closed path s₃.rounds s₃
      have hg' := hg.trans hg₄
      dsimp only
      rw [hl]
      cases (blocks s₃.rounds s₃.input).2 with
      | true => exact hkept hg'
      | false =>
        obtain ⟨-, huf, huw, -⟩ := unlink_eq path s₄
        refine ⟨?_, ?_⟩
        · change ¬Acked s (s₄.unlink path)
          rw [Acked, huw.output]
          exact (hkept hg').1
        · change (s₄.unlink path).sys.files path = _ ∨ (s₄.unlink path).sys.files path = none
          rw [huf, hg'.sys]
          cases unlinks 0 s₄
          · exact .inl rfl
          · exact .inr rfl

/-- What a request leaves behind. -/
lemma handleSendFile_outcome (path : Path) (s : Session) :
    match found (held path s) s.sys.opens with
    | .error _ => ¬Acked s ((s.unlink path).handleSendFile path).2 ∧
        (((s.unlink path).handleSendFile path).2.sys.files path = none ∨
          ((s.unlink path).handleSendFile path).2.sys.files path = s.sys.files path)
    | .ok c => Pushed path c s ((s.unlink path).handleSendFile path).2 := by
  obtain ⟨-, huf, -, huo, -⟩ := unlink_eq path s
  have hheld : (s.unlink path).sys.files path = held path s := huf
  have hat := attempt_openTarget path (s.unlink path)
  rw [hheld, huo] at hat
  cases ho : (s.unlink path).openTarget path with
  | mk r s₂ =>
    rw [ho] at hat
    cases hfound : found (held path s) s.sys.opens with
    | error e =>
      rw [hfound] at hat
      obtain rfl : r = .error e := hat.result
      have hs₂ : s₂.sys.files path = held path s := hat.holds
      obtain ⟨hnot, hkept⟩ := kept_of_not_opened hat.opened ho
      refine ⟨hnot, ?_⟩
      rcases hkept with hkept | hkept
      · rw [hkept, hs₂, held]
        cases unlinks 0 s
        · exact .inr rfl
        · exact .inl rfl
      · exact .inl hkept
    | ok c =>
      rw [hfound] at hat
      obtain rfl : r = .ok () := hat.result
      unfold handleSendFile
      rw [ho]
      exact pushed_of_opened hat.opened hat.holds

lemma overlay_eq_self_iff (bs c : List UInt8) : overlay bs c = bs ↔ c.length ≤ bs.length := by
  simp [overlay]

/-- **When a push is exact.**  The file holds the transferred data and nothing else after an
`OKAY`, and nothing of it otherwise, exactly when an opened target held no more than what
acknowledged data writes over it, and whatever a failed transfer has written is unlinked or
leaves the old content. -/
theorem exact_iff (s : Session) {name : Path} (hfile : (sendTarget name).2 = false) :
    Exact name s ↔ Clean name s := by
  unfold Exact Clean
  rw [doSend_file hfile]
  generalize (sendTarget name).1 = path
  have hout := handleSendFile_outcome path s
  generalize ((s.unlink path).handleSendFile path).2 = s' at hout ⊢
  dsimp only
  cases hfound : found (held path s) s.sys.opens with
  | error e =>
    rw [hfound] at hout
    exact iff_of_true ⟨fun h => absurd h hout.1, fun _ => hout.2⟩ nofun
  | ok c =>
    rw [hfound] at hout
    obtain ⟨hfiles, hacked⟩ := hout
    simp only [Except.ok.injEq, forall_eq']
    by_cases hack : ((sent s).2 && (written s).2 && okayDelivered s) = true
    · -- acknowledged
      obtain ⟨hboth, -⟩ := Bool.and_eq_true_iff.mp hack
      obtain ⟨hdone, hall⟩ := Bool.and_eq_true_iff.mp hboth
      have hcl : cleaned s = false := by simp [cleaned, hall, hdone]
      have hwhole : (written s).1 = (sent s).1.flatten := taken_all hall
      have hval : s'.sys.files path = some (overlay (written s).1 c) := by
        rw [hfiles, hcl]
        rfl
      rw [if_pos hack, hval, ← hwhole, Option.some_inj, overlay_eq_self_iff]
      exact ⟨fun h => h.1 (hacked.mpr hack),
        fun h => ⟨fun _ => h, fun h' => absurd (hacked.mpr hack) h'⟩⟩
    · -- not acknowledged
      have hnot : ¬Acked s s' := fun h => hack (hacked.mp h)
      rw [if_neg hack, hfiles]
      cases hcl : cleaned s with
      | true => exact iff_of_true ⟨fun h => absurd h hnot, fun _ => .inl rfl⟩ (.inl rfl)
      | false =>
        refine ⟨fun h => .inr ?_, fun h => ⟨fun h' => absurd h' hnot, fun _ => .inr ?_⟩⟩
        · exact (h.2 hnot).resolve_left (Option.some_ne_none _)
        · exact h.resolve_left Bool.false_ne_true

/-- An old file of ten bytes that may be written but not unlinked, and a push of two bytes. -/
def protectedFile : Session where
  sys := { files := fun p => if p = str "f" then some (str "0123456789") else none
           unlinks := [some (.other 13)] }
  input := [.data (dataBytes (str "ab") ++ syncmsg [idDone, 0])]
  buffer := List.replicate syncDataMax 0

/-- The push is acknowledged and the file keeps eight of its old bytes. -/
theorem tail_survives :
    ¬Exact (str "f,0100644") protectedFile ∧
      (protectedFile.doSend (str "f,0100644")).2.output = syncmsg [idOkay, 0] ∧
      (protectedFile.doSend (str "f,0100644")).2.sys.files (str "f") =
        some (str "ab23456789") := by
  refine ⟨fun h => ?_, by decide +kernel, by decide +kernel⟩
  have hfile := h.1 (by unfold Acked; decide +kernel)
  revert hfile
  decide +kernel

/-- The same file, which may be unlinked. -/
def plainFile : Session := { protectedFile with sys := { protectedFile.sys with unlinks := [] } }

/-- The same push over it. -/
theorem exact_unlinked : Exact (str "f,0100644") plainFile := by
  refine (exact_iff plainFile (by decide +kernel)).mpr fun c hc => ?_
  have hcreated : found (held (sendTarget (str "f,0100644")).1 plainFile) plainFile.sys.opens =
      .ok [] := by decide +kernel
  rw [hcreated] at hc
  cases hc
  decide +kernel

end Adbd.SyncSend
