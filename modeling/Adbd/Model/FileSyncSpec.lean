import Adbd.Model.FileSync

/-!
# What the calls of a sync session do

One lemma for each way the service touches its session.  `Fed s bytes` says that the host has
sent `bytes` and nothing else, cut up in whatever way; a read then takes its bytes off the front.
`Wired s s'` says that a call left the connection to the host alone, which every call on the file
system does.
-/

namespace Adbd

open Bytes Syscall

/-! ## Messages -/

@[simp] lemma length_syncmsg (ws : List UInt32) : (syncmsg ws).length = 4 * ws.length := by
  induction ws with
  | nil => rfl
  | cons w ws ih =>
    rw [syncmsg, List.flatMap_cons, List.length_append, length_leBytes, ← syncmsg, ih,
      List.length_cons]
    omega

/-- The words of a member of `syncmsg` are read back one by one. -/
lemma wordAt_syncmsg {ws : List UInt32} {i : ℕ} {w : UInt32} (h : ws[i]? = some w)
    (rest : List UInt8) : wordAt (syncmsg ws ++ rest) i = w := by
  induction ws generalizing i with
  | nil => simp at h
  | cons v ws ih =>
    have hcons : syncmsg (v :: ws) ++ rest = leBytes 4 v.toNat ++ (syncmsg ws ++ rest) := by
      rw [syncmsg, List.flatMap_cons, List.append_assoc, ← syncmsg]
    have hlen : (leBytes 4 v.toNat).length = 4 := length_leBytes _ _
    cases i with
    | zero =>
      cases h
      rw [hcons, wordAt, Nat.mul_zero, List.drop_zero, List.take_left' hlen]
      exact word_roundtrip _
    | succ i =>
      rw [hcons, wordAt, show 4 * (i + 1) = (leBytes 4 v.toNat).length + 4 * i by omega,
        List.drop_append, List.drop_of_length_le (by omega), Nat.add_sub_cancel_left,
        List.nil_append]
      exact ih h

@[simp] lemma wordAt_pair_zero (a b : UInt32) : wordAt (syncmsg [a, b]) 0 = a := by
  simpa using @wordAt_syncmsg [a, b] 0 a rfl []

@[simp] lemma wordAt_pair_one (a b : UInt32) : wordAt (syncmsg [a, b]) 1 = b := by
  simpa using @wordAt_syncmsg [a, b] 1 b rfl []

namespace Session

/-! ## Reads from the host -/

/-- What the host has sent and the service has not read yet, and that nothing breaks it off. -/
def Fed (s : Session) (bytes : List UInt8) : Prop :=
  Flowing s.input ∧ bytesOf s.input = bytes

/-- All that the host has sent arrives in one piece. -/
lemma fed_data {s : Session} {bytes : List UInt8} (hne : bytes ≠ [])
    (h : s.input = [.data bytes]) : Fed s bytes := by
  rw [Fed, h]
  refine ⟨fun r hr => .inr ⟨bytes, hne, List.mem_singleton.mp hr⟩, ?_⟩
  rw [bytesOf, bytesOf, List.append_nil]

lemma read_fed {s : Session} {bs rest : List UInt8} {n : ℕ} (h : Fed s (bs ++ rest))
    (hn : bs.length = n) :
    ∃ input, s.read n = (some bs, { s with input := input }) ∧
      Fed { s with input := input } rest := by
  obtain ⟨input, hread, hrest, hflow⟩ := readFull_append h.1 h.2 hn
  exact ⟨input, by rw [read, readx, hread], hflow, hrest⟩

lemma readBuffer_fed {s : Session} {bs rest : List UInt8} {n : ℕ} (h : Fed s (bs ++ rest))
    (hn : bs.length = n) :
    ∃ input, s.readBuffer n =
        (some bs, { s with input := input, buffer := bs ++ s.buffer.drop bs.length }) ∧
      Fed { s with input := input, buffer := bs ++ s.buffer.drop bs.length } rest := by
  obtain ⟨input, hread, hfed⟩ := read_fed h hn
  exact ⟨input, by rw [readBuffer, hread], hfed⟩

/-! ## Writes to the host -/

/-- A write to a host that takes everything. -/
lemma write_patient {s : Session} (hs : Patient s.replies) (bs : List UInt8) :
    ∃ replies, s.write bs =
        (true, { s with output := s.output ++ bs, replies := replies }) ∧ Patient replies := by
  obtain ⟨rest, hw, hp⟩ := writeFull_patient hs (le_refl bs.length)
  exact ⟨rest.dropLast, by rw [write, writex, hw], hp⟩

/-- The two writes of a `FAIL` message. -/
lemma failMessage_patient {s : Session} (hs : Patient s.replies) (reason : List UInt8) :
    ∃ replies, s.failMessage reason =
        (true, { s with
          output := s.output ++ (syncmsg [idFail, UInt32.ofNat reason.length] ++ reason)
          replies := replies }) ∧ Patient replies := by
  obtain ⟨r₁, hw₁, hp₁⟩ := write_patient hs (syncmsg [idFail, UInt32.ofNat reason.length])
  obtain ⟨r₂, hw₂, hp₂⟩ := write_patient
    (s := { s with
      output := s.output ++ syncmsg [idFail, UInt32.ofNat reason.length], replies := r₁ })
    hp₁ reason
  exact ⟨r₂, by rw [failMessage, hw₁]; simp only [hw₂, List.append_assoc], hp₂⟩

/-! ## Calls on the file system -/

/-- The connection to the host is as it was. -/
structure Wired (s s' : Session) : Prop where
  input : s'.input = s.input := by rfl
  replies : s'.replies = s.replies := by rfl
  output : s'.output = s.output := by rfl

@[refl] lemma Wired.refl (s : Session) : Wired s s := {}

lemma Wired.trans {s s' s'' : Session} (h : Wired s s') (h' : Wired s' s'') : Wired s s'' :=
  ⟨h'.input.trans h.input, h'.replies.trans h.replies, h'.output.trans h.output⟩

lemma Wired.fed {s s' : Session} {bytes : List UInt8} (h : Wired s s') (hf : Fed s bytes) :
    Fed s' bytes := by
  rwa [Fed, h.input]

lemma Wired.patient {s s' : Session} (h : Wired s s') (hp : Patient s.replies) :
    Patient s'.replies := by
  rwa [h.replies]

lemma wired_unlink (path : Path) (s : Session) : Wired s (s.unlink path) := by
  unfold unlink
  cases s.sys.unlinks.head?.join <;> exact {}

lemma wired_openCreate (path : Path) (s : Session) : Wired s (s.openCreate path).2 := by
  unfold openCreate nextOpen
  cases s.sys.opens.head?.join with
  | some e => exact {}
  | none =>
    dsimp only
    split <;> exact {}

lemma wired_openExisting (path : Path) (s : Session) : Wired s (s.openExisting path).2 := by
  unfold openExisting nextOpen
  cases s.sys.opens.head?.join with
  | some e => exact {}
  | none =>
    dsimp only
    split <;> exact {}

/-- `mkdirs` uses up outcomes of `mkdir` and does nothing else to the session. -/
lemma mkdirs_eq (path : Path) (s : Session) :
    ∃ ok rest, s.mkdirs path = (ok, { s with sys := { s.sys with mkdirs := rest } }) := by
  have heach : ∀ (ds : List Path) (ms : List (Option Errno)),
      ∃ ok rest, mkdirEach ds { s with sys := { s.sys with mkdirs := ms } } =
        (ok, { s with sys := { s.sys with mkdirs := rest } }) := by
    intro ds
    induction ds with
    | nil => exact fun ms => ⟨true, ms, rfl⟩
    | cons d ds ih =>
      intro ms
      unfold mkdirEach mkdir
      dsimp only
      cases ms.head?.join with
      | some e =>
        dsimp only
        by_cases he : e ≠ .eexist
        · rw [if_pos he]
          exact ⟨false, ms.tail, rfl⟩
        · rw [if_neg he]
          exact ih ms.tail
      | none => exact ih ms.tail
  unfold mkdirs
  split
  · exact ⟨false, s.sys.mkdirs, rfl⟩
  · exact heach _ _

lemma wired_mkdirs (path : Path) (s : Session) : Wired s (s.mkdirs path).2 := by
  obtain ⟨ok, rest, h⟩ := mkdirs_eq path s
  rw [h]
  exact {}

lemma wired_symlink (path : Path) (s : Session) : Wired s (s.symlink path).2 := {}

lemma wired_writeFile (path : Path) (off : ℕ) (bs : List UInt8) (s : Session) :
    Wired s (s.writeFile path off bs).2 := by
  unfold writeFile
  dsimp only
  split <;> exact {}

lemma wired_createAgain (path : Path) (r : Except Errno Unit × Session) :
    Wired r.2 (createAgain path r).2 := by
  unfold createAgain
  split
  · exact (wired_mkdirs path _).trans (wired_openCreate path _)
  · rfl

lemma wired_openAgain (path : Path) (r : Except Errno Unit × Session) :
    Wired r.2 (openAgain path r).2 := by
  unfold openAgain
  split
  · exact wired_openExisting path _
  · rfl

lemma wired_openTarget (path : Path) (s : Session) : Wired s (s.openTarget path).2 :=
  ((wired_openCreate path s).trans (wired_createAgain path _)).trans (wired_openAgain path _)

lemma wired_makeLink (path : Path) (s : Session) : Wired s (s.makeLink path).2 := by
  unfold makeLink
  split
  · next s' h =>
    have hw : Wired s s' := by
      have := wired_symlink path s
      rwa [h] at this
    exact hw.trans ((wired_mkdirs path s').trans (wired_symlink path _))
  · exact wired_symlink path s

/-! ## Requests -/

/-- The header of a request and its name. -/
def requestBytes (id : UInt32) (name : List UInt8) : List UInt8 :=
  syncmsg [id, UInt32.ofNat name.length] ++ name

/-- A `DATA` message. -/
def dataBytes (bs : List UInt8) : List UInt8 := syncmsg [idData, UInt32.ofNat bs.length] ++ bs

lemma toNat_length {bs : List UInt8} {n : ℕ} (h : bs.length ≤ n) (hn : n < 2 ^ 32) :
    (UInt32.ofNat bs.length).toNat = bs.length := by
  rw [UInt32.toNat_ofNat']
  exact Nat.mod_eq_of_lt (by omega)

/-- A round takes the header and the name of its request off the input and acts on them. -/
lemma command_fed {s : Session} {id : UInt32} {name rest : List UInt8}
    (h : Fed s (requestBytes id name ++ rest)) (hname : name.length ≤ 1024) :
    ∃ input, s.command = { s with input := input }.serve id (name.takeWhile (· ≠ 0)) ∧
      Fed { s with input := input } rest := by
  rw [requestBytes, List.append_assoc] at h
  obtain ⟨i₁, hr₁, hf₁⟩ := read_fed (n := 8) h (by simp)
  have hlen : (UInt32.ofNat name.length).toNat = name.length := toNat_length hname (by decide)
  obtain ⟨i₂, hr₂, hf₂⟩ := read_fed hf₁ rfl
  refine ⟨i₂, ?_, hf₂⟩
  rw [command, hr₁]
  simp only [wordAt_pair_one, wordAt_pair_zero, hlen, if_neg (by omega : ¬1024 < name.length)]
  rw [hr₂]

lemma doSend_file {name : Path} (h : (sendTarget name).2 = false) (s : Session) :
    s.doSend name = (s.unlink (sendTarget name).1).handleSendFile (sendTarget name).1 := by
  unfold doSend
  generalize sendTarget name = target at h ⊢
  obtain ⟨path, isLink⟩ := target
  exact if_neg (by rw [show isLink = false from h]; exact Bool.false_ne_true)

lemma doSend_link {name : Path} (h : (sendTarget name).2 = true) (s : Session) :
    s.doSend name = (s.unlink (sendTarget name).1).handleSendLink (sendTarget name).1 := by
  unfold doSend
  generalize sendTarget name = target at h ⊢
  obtain ⟨path, isLink⟩ := target
  exact if_pos h

/-- The `DATA` message of a link is read into the buffer. -/
lemma handleSendLink_fed {s : Session} {payload rest : List UInt8} (path : Path)
    (h : Fed s (dataBytes payload ++ rest)) (hp : payload.length ≤ syncDataMax) :
    ∃ input, Fed { s with input := input, buffer := payload ++ s.buffer.drop payload.length } rest ∧
      s.handleSendLink path =
        match { s with
            input := input
            buffer := payload ++ s.buffer.drop payload.length }.makeLink path with
        | (some e, s) => (false, (s.failErrno e).2)
        | (none, s) =>
          match s.read 8 with
          | (none, s) => (false, s)
          | (some hdr, s) =>
            if wordAt hdr 0 = idDone then s.write (syncmsg [idOkay, 0])
            else (false, (s.failMessage (str "invalid data message: expected ID_DONE")).2) := by
  rw [dataBytes, List.append_assoc] at h
  obtain ⟨i₁, hr₁, hf₁⟩ := read_fed (n := 8) h (by simp)
  have hlen : (UInt32.ofNat payload.length).toNat = payload.length := toNat_length hp (by decide)
  obtain ⟨i₂, hr₂, hf₂⟩ := readBuffer_fed hf₁ rfl
  refine ⟨i₂, hf₂, ?_⟩
  rw [handleSendLink, hr₁]
  simp only [wordAt_pair_zero, wordAt_pair_one, ne_eq, not_true_eq_false, if_false, hlen,
    if_neg (by omega : ¬syncDataMax < payload.length)]
  rewrite [hr₂]
  rfl

end Session

end Adbd
