import Adbd.Model.FileSyncSpec
import Mathlib.Logic.Relation

/-!
# Framing of a sync session

A host sends requests one after the other on one connection and tells them apart by position
alone: a service that takes a byte too few or too many off the input misreads everything behind
it.  So does a host if a request is answered twice or not at all.

`session_framing` is about any list of well-formed requests that a `QUIT` ends, cut into reads
in any way, with any outcome of every call on the file system and a host that takes its replies.
Whenever the service comes back for another request, the input stands at the first byte of one,
and each request before it has got one well-formed reply, in order.  The service returns, at the
`QUIT` or after a reply that is or ends in a `FAIL`.
-/

namespace Adbd.SyncSession

open Bytes Syscall Session

/-! ## Requests and replies -/

/-- What a host asks for; a transfer carries its `DATA` payloads and the time its `DONE` sets. -/
inductive Request
  | stat (name : List UInt8)
  | list (name : List UInt8)
  | recv (name : List UInt8)
  | sendFile (name : List UInt8) (blocks : List (List UInt8)) (timestamp : UInt32)
  | sendLink (name payload : List UInt8) (timestamp : UInt32)

/-- A request on the wire. -/
def Request.bytes : Request → List UInt8
  | .stat name => requestBytes idStat name
  | .list name => requestBytes idList name
  | .recv name => requestBytes idRecv name
  | .sendFile name blocks timestamp =>
    requestBytes idSend name ++ (blocks.flatMap dataBytes ++ syncmsg [idDone, timestamp])
  | .sendLink name payload timestamp =>
    requestBytes idSend name ++ (dataBytes payload ++ syncmsg [idDone, timestamp])

def Request.name : Request → List UInt8
  | .stat name | .list name | .recv name | .sendFile name .. | .sendLink name .. => name

/-- Names and blocks of a request are within bounds, and the mode in the name of a `SEND` asks
for what its body is. -/
def Request.WellFormed (r : Request) : Prop :=
  r.name.length ≤ 1024 ∧
    match r with
    | .sendFile name blocks _ =>
      (sendTarget (name.takeWhile (· ≠ 0))).2 = false ∧ ∀ bs ∈ blocks, bs.length ≤ syncDataMax
    | .sendLink name payload _ =>
      (sendTarget (name.takeWhile (· ≠ 0))).2 = true ∧ payload.length ≤ syncDataMax
    | _ => True

/-- An entry of a directory: mode, size, time and name. -/
structure Dent where
  mode : UInt32
  size : UInt32
  time : UInt32
  name : List UInt8

/-- What the service answers; `recv` ends with a `DONE` or with a `FAIL` and its reason. -/
inductive Reply
  | stat (mode size time : UInt32)
  | list (dents : List Dent)
  | recv (blocks : List (List UInt8)) (failure : Option (List UInt8))
  | okay
  | fail (reason : List UInt8)

def Dent.bytes (d : Dent) : List UInt8 :=
  syncmsg [idDent, d.mode, d.size, d.time, UInt32.ofNat d.name.length] ++ d.name

def failBytes (reason : List UInt8) : List UInt8 :=
  syncmsg [idFail, UInt32.ofNat reason.length] ++ reason

/-- A reply on the wire. -/
def Reply.bytes : Reply → List UInt8
  | .stat mode size time => syncmsg [idStat, mode, size, time]
  | .list dents => dents.flatMap Dent.bytes ++ syncmsg [idDone, 0, 0, 0, 0]
  | .recv blocks none => blocks.flatMap dataBytes ++ syncmsg [idDone, 0]
  | .recv blocks (some reason) => blocks.flatMap dataBytes ++ failBytes reason
  | .okay => syncmsg [idOkay, 0]
  | .fail reason => failBytes reason

/-- Every length in the reply fits the word that announces it, and no block is empty or longer
than the buffer. -/
def Reply.WellFormed : Reply → Prop
  | .stat .. | .okay => True
  | .list dents => ∀ d ∈ dents, d.name.length ≤ 256
  | .recv blocks failure =>
    (∀ bs ∈ blocks, bs ≠ [] ∧ bs.length ≤ syncDataMax) ∧
      ∀ reason, failure = some reason → reason.length < 2 ^ 32
  | .fail reason => reason.length < 2 ^ 32

/-- The reply is, or ends in, a `FAIL`. -/
def Reply.Failed : Reply → Prop
  | .fail _ | .recv _ (some _) => True
  | _ => False

/-- The kind of reply a request gets. -/
def Request.Answers : Request → Reply → Prop
  | .stat _, .stat .. => True
  | .list _, .list _ => True
  | .recv _, .recv .. => True
  | .sendFile .., .okay | .sendFile .., .fail _ => True
  | .sendLink .., .okay | .sendLink .., .fail _ => True
  | _, _ => False

/-! ## What is written -/

/-- `bs` has been written, to a host that goes on taking what it gets. -/
structure Says (bs : List UInt8) (s s' : Session) : Prop where
  output : s'.output = s.output ++ bs
  patient : Patient s'.replies
  input : s'.input = s.input

lemma Says.trans {bs cs : List UInt8} {s s' s'' : Session} (h : Says bs s s')
    (h' : Says cs s' s'') : Says (bs ++ cs) s s'' :=
  ⟨by rw [h'.output, h.output, List.append_assoc], h'.patient, h'.input.trans h.input⟩

lemma Says.of_wired {bs : List UInt8} {s s' s'' : Session} (h : Wired s s') (h' : Says bs s' s'') :
    Says bs s s'' :=
  ⟨by rw [h'.output, h.output], h'.patient, h'.input.trans h.input⟩

lemma Says.fed {bs rest : List UInt8} {s s' : Session} (h : Says bs s s') (hf : Fed s rest) :
    Fed s' rest := by
  rwa [Fed, h.input]

lemma replies_write {s : Session} (hp : Patient s.replies) (bs : List UInt8) :
    ∃ s', s.write bs = (true, s') ∧ Says bs s s' := by
  obtain ⟨replies, hw, hp'⟩ := write_patient hp bs
  exact ⟨_, hw, rfl, hp', rfl⟩

lemma replies_failMessage {s : Session} (hp : Patient s.replies) (reason : List UInt8) :
    ∃ s', s.failMessage reason = (true, s') ∧ Says (failBytes reason) s s' := by
  obtain ⟨replies, hw, hp'⟩ := failMessage_patient hp reason
  exact ⟨_, hw, rfl, hp', rfl⟩

/-! ## One request -/

/-- A request has got its reply; the service goes on at the byte behind it, or ends after a
failure. -/
structure Served (reply : Reply) (rest : List UInt8) (s : Session) (q : Bool × Session) :
    Prop where
  formed : reply.WellFormed
  output : q.2.output = s.output ++ reply.bytes
  patient : Patient q.2.replies
  aligned : q.1 = true → Fed q.2 rest
  ended : q.1 = false → reply.Failed

/-- A reply that says everything in one go. -/
lemma Served.of_reply {reply : Reply} {rest : List UInt8} {s s' : Session} (hf : Fed s rest)
    (hr : reply.WellFormed) (h : Says reply.bytes s s') : Served reply rest s (true, s') :=
  ⟨hr, h.output, h.patient, fun _ => h.fed hf, nofun⟩

lemma lstat_eq (path : Path) (s : Session) :
    ∃ st s', s.lstat path = (st, s') ∧ Wired s s' :=
  ⟨_, _, rfl, {}⟩

lemma served_doStat (path : Path) {s : Session} {rest : List UInt8} (hf : Fed s rest)
    (hp : Patient s.replies) :
    ∃ mode size time, Served (.stat mode size time) rest s (s.doStat path) := by
  obtain ⟨st, s₁, hst, hw₁⟩ := lstat_eq path s
  unfold doStat
  rw [hst]
  cases st with
  | none =>
    obtain ⟨s₂, hw₂, hs₂⟩ := replies_write (hw₁.patient hp) (syncmsg [idStat, 0, 0, 0])
    exact ⟨0, 0, 0, by dsimp only; rw [hw₂]; exact .of_reply hf trivial (.of_wired hw₁ hs₂)⟩
  | some st =>
    obtain ⟨s₂, hw₂, hs₂⟩ := replies_write (hw₁.patient hp) (syncmsg (statWords idStat st))
    exact ⟨st.mode, UInt32.ofNat st.size, UInt32.ofNat st.mtime,
      by dsimp only; rw [hw₂]; exact .of_reply hf trivial (.of_wired hw₁ hs₂)⟩

/-- The `readdir` loop writes one entry after the other. -/
lemma replies_listEntries (path : Path) (des : List Dirent) {s : Session} (hp : Patient s.replies) :
    ∃ (dents : List Dent) (s' : Session), listEntries path des s = (true, s') ∧
      (∀ d ∈ dents, d.name.length ≤ 256) ∧ Says (dents.flatMap Dent.bytes) s s' := by
  induction des generalizing s with
  | nil => exact ⟨[], s, rfl, by simp, by simp, hp, rfl⟩
  | cons de des ih =>
    unfold listEntries
    by_cases hlong : 256 < de.name.length
    · rw [if_pos hlong]
      exact ih hp
    rw [if_neg hlong]
    obtain ⟨st, s₁, hst, hw₁⟩ := lstat_eq (path ++ [0x2f] ++ de.name) s
    have hp₁ := hw₁.patient hp
    rw [hst]
    cases st with
    | none =>
      obtain ⟨dents, s', hl, hshort, hs⟩ := ih hp₁
      exact ⟨dents, s', hl, hshort, .of_wired hw₁ hs⟩
    | some st =>
      obtain ⟨s₂, hw₂, hs₂⟩ := replies_write hp₁
        (syncmsg (statWords idDent st ++ [UInt32.ofNat de.name.length]))
      obtain ⟨s₃, hw₃, hs₃⟩ := replies_write hs₂.patient de.name
      obtain ⟨dents, s', hl, hshort, hs⟩ := ih hs₃.patient
      refine ⟨⟨st.mode, UInt32.ofNat st.size, UInt32.ofNat st.mtime, de.name⟩ :: dents, s', ?_, ?_,
        .of_wired hw₁ ((hs₂.trans hs₃).trans hs)⟩
      · dsimp only
        rw [hw₂]
        dsimp only
        rw [hw₃]
        exact hl
      · intro d hd
        rcases List.mem_cons.mp hd with rfl | hd
        · exact Nat.le_of_not_lt hlong
        · exact hshort d hd

lemma served_doList (path : Path) {s : Session} {rest : List UInt8} (hf : Fed s rest)
    (hp : Patient s.replies) : ∃ dents, Served (.list dents) rest s (s.doList path) := by
  obtain ⟨des, s₁, hd, hw₁⟩ : ∃ des s', s.opendir path = (des, s') ∧ Wired s s' :=
    ⟨_, _, rfl, {}⟩
  unfold doList
  rw [hd]
  cases des with
  | none =>
    obtain ⟨s₂, hw₂, hs₂⟩ := replies_write (hw₁.patient hp) (syncmsg [idDone, 0, 0, 0, 0])
    refine ⟨[], ?_⟩
    dsimp only
    rw [hw₂]
    exact .of_reply hf (by simp [Reply.WellFormed]) (.of_wired hw₁ hs₂)
  | some des =>
    obtain ⟨dents, s₂, hl, hshort, hs₂⟩ := replies_listEntries path des (hw₁.patient hp)
    obtain ⟨s₃, hw₃, hs₃⟩ := replies_write hs₂.patient (syncmsg [idDone, 0, 0, 0, 0])
    refine ⟨dents, ?_⟩
    dsimp only
    rw [hl]
    dsimp only
    rw [hw₃]
    exact .of_reply hf hshort (.of_wired hw₁ (hs₂.trans hs₃))

/-- The loop of `do_recv` writes blocks, and a `FAIL` if a read fails. -/
lemma replies_recvLoop (rs : List FileRead) {s : Session} (hp : Patient s.replies) :
    ∃ (blocks : List (List UInt8)) (failure : Option (List UInt8)) (s' : Session),
      recvLoop rs s = (failure.map fun _ => true, s') ∧
      (∀ bs ∈ blocks, bs ≠ [] ∧ bs.length ≤ syncDataMax) ∧
      (∀ reason, failure = some reason → reason.length < 2 ^ 32) ∧
      Says (blocks.flatMap dataBytes ++ failure.elim [] failBytes) s s' := by
  induction rs generalizing s with
  | nil => exact ⟨[], none, s, rfl, by simp, nofun, by simp, hp, rfl⟩
  | cons r rs ih =>
    cases r with
    | intr => exact ih hp
    | fail e =>
      obtain ⟨s', hf, hs⟩ := replies_failMessage hp (s.sys.strerror e).text
      refine ⟨[], some (s.sys.strerror e).text, s', ?_, by simp, ?_, hs⟩
      · unfold recvLoop failErrno
        rw [hf]
        rfl
      · rintro _ ⟨⟩
        exact (s.sys.strerror e).short
    | data bs hbs =>
      unfold recvLoop
      by_cases hend : bs = []
      · rw [if_pos hend]
        exact ⟨[], none, s, rfl, by simp, nofun, by simp, hp, rfl⟩
      rw [if_neg hend]
      obtain ⟨s₁, hw₁, hs₁⟩ := replies_write
        (s := { s with buffer := bs ++ s.buffer.drop bs.length }) hp
        (syncmsg [idData, UInt32.ofNat bs.length])
      obtain ⟨s₂, hw₂, hs₂⟩ := replies_write hs₁.patient bs
      obtain ⟨blocks, failure, s', hl, hblocks, hfail, hs⟩ := ih hs₂.patient
      refine ⟨bs :: blocks, failure, s', ?_, ?_, hfail, ?_⟩
      · rw [hw₁]
        dsimp only
        rw [hw₂]
        exact hl
      · intro b hb
        rcases List.mem_cons.mp hb with rfl | hb
        · exact ⟨hend, hbs⟩
        · exact hblocks b hb
      · have hreply := (hs₁.trans hs₂).trans hs
        rw [List.flatMap_cons, List.append_assoc]
        exact ⟨hreply.output, hreply.patient, hreply.input⟩

lemma served_doRecv (path : Path) {s : Session} {rest : List UInt8} (hf : Fed s rest)
    (hp : Patient s.replies) :
    ∃ blocks failure, Served (.recv blocks failure) rest s (s.doRecv path) := by
  obtain ⟨r, s₁, hr, hw₁⟩ : ∃ r s', s.openSource path = (r, s') ∧ Wired s s' :=
    ⟨_, _, rfl, {}⟩
  unfold doRecv
  rw [hr]
  cases r with
  | error e =>
    obtain ⟨s₂, hf₂, hs₂⟩ := replies_failMessage (hw₁.patient hp) (s₁.sys.strerror e).text
    refine ⟨[], some (s₁.sys.strerror e).text, ?_⟩
    dsimp only
    rw [failErrno, hf₂]
    refine .of_reply hf ⟨by simp, ?_⟩ (.of_wired hw₁ hs₂)
    rintro _ ⟨⟩
    exact (s₁.sys.strerror e).short
  | ok rs =>
    obtain ⟨blocks, failure, s₂, hl, hblocks, hfail, hs₂⟩ :=
      replies_recvLoop rs (hw₁.patient hp)
    refine ⟨blocks, failure, ?_⟩
    dsimp only
    rw [hl]
    cases failure with
    | some reason => exact .of_reply hf ⟨hblocks, hfail⟩ (.of_wired hw₁ hs₂)
    | none =>
      obtain ⟨s₃, hw₃, hs₃⟩ := replies_write hs₂.patient (syncmsg [idDone, 0])
      dsimp only [Option.map_none]
      rw [hw₃]
      have hreply := hs₂.trans hs₃
      rw [Option.elim_none, List.append_nil] at hreply
      exact .of_reply hf ⟨hblocks, hfail⟩ (.of_wired hw₁ hreply)

/-! ## `SEND` -/

/-- What a transfer has been told so far: nothing while the file is open, a `FAIL` once it is
not. -/
structure Standing (out : List UInt8) (fd : Option ℕ) (s : Session) : Prop where
  patient : Patient s.replies
  quiet : fd.isSome → s.output = out
  told : fd = none → ∃ reason : List UInt8,
    reason.length < 2 ^ 32 ∧ s.output = out ++ failBytes reason

lemma Standing.of_wired {out : List UInt8} {fd : Option ℕ} {s s' : Session}
    (h : Standing out fd s) (hw : Wired s s') : Standing out fd s' :=
  ⟨hw.patient h.patient, fun hfd => hw.output.trans (h.quiet hfd), fun hfd => by
    rw [hw.output]
    exact h.told hfd⟩

/-- A failure closes the file and tells the host. -/
lemma Standing.fail {out : List UInt8} {off : ℕ} {s : Session} (h : Standing out (some off) s)
    (e : Errno) : ∃ s', s.failErrno e = (true, s') ∧ s'.input = s.input ∧ Standing out none s' := by
  obtain ⟨s', hf, hs⟩ := replies_failMessage h.patient (s.sys.strerror e).text
  refine ⟨s', hf, hs.input, hs.patient, nofun, fun _ => ⟨_, (s.sys.strerror e).short, ?_⟩⟩
  rw [hs.output, h.quiet rfl]

lemma Standing.advance {out : List UInt8} {off : ℕ} {s : Session} (h : Standing out (some off) s)
    (off' : ℕ) : Standing out (some off') s :=
  ⟨h.patient, fun _ => h.quiet rfl, nofun⟩

/-- Reading changes nothing the host has been told. -/
lemma Standing.read {out : List UInt8} {fd : Option ℕ} {s : Session} {input : List ReadResult}
    {buffer : List UInt8} (h : Standing out fd s) :
    Standing out fd { s with input := input, buffer := buffer } :=
  ⟨h.patient, h.quiet, h.told⟩

/-- The loop takes the whole transfer off the input, whatever the file system does. -/
lemma loop_fed (path : Path) {out : List UInt8} {blocks : List (List UInt8)} {timestamp : UInt32}
    {rest : List UInt8} (hblocks : ∀ bs ∈ blocks, bs.length ≤ syncDataMax) {n : ℕ}
    (hn : blocks.length < n) {fd : Option ℕ} {s : Session}
    (hf : Fed s (blocks.flatMap dataBytes ++ (syncmsg [idDone, timestamp] ++ rest)))
    (hs : Standing out fd s) :
    ∃ fd' s', sendFileLoop path n fd s = (.done fd', s') ∧ Fed s' rest ∧
      Standing out fd' s' := by
  induction blocks generalizing n fd s with
  | nil =>
    obtain ⟨n, rfl⟩ : ∃ m, n = m + 1 := ⟨n - 1, by simp at hn; omega⟩
    obtain ⟨input, hr, hf'⟩ := @read_fed _ _ rest 8 hf (by simp)
    refine ⟨fd, _, ?_, hf', @Standing.read _ _ _ _ s.buffer hs⟩
    unfold sendFileLoop
    rw [hr]
    dsimp only
    rw [wordAt_pair_zero, if_pos (by decide), if_pos rfl]
  | cons bs blocks ih =>
    obtain ⟨n, rfl⟩ : ∃ m, n = m + 1 := ⟨n - 1, by simp at hn; omega⟩
    have hn' : blocks.length < n := by simpa using hn
    have hlen : bs.length ≤ syncDataMax := hblocks bs (List.mem_cons_self ..)
    have hblocks' : ∀ b ∈ blocks, b.length ≤ syncDataMax := fun b hb =>
      hblocks b (List.mem_cons_of_mem _ hb)
    rw [List.flatMap_cons, dataBytes, List.append_assoc, List.append_assoc] at hf
    obtain ⟨i₁, hr₁, hf₁⟩ := read_fed (n := 8) hf (by simp)
    have hword : (UInt32.ofNat bs.length).toNat = bs.length := toNat_length hlen (by decide)
    obtain ⟨i₂, hr₂, hf₂⟩ := readBuffer_fed hf₁ rfl
    have hs₂ : Standing out fd { s with input := i₂, buffer := bs ++ s.buffer.drop bs.length } :=
      hs.read
    unfold sendFileLoop
    rw [hr₁]
    simp only [wordAt_pair_zero, wordAt_pair_one, ne_eq, not_true_eq_false, if_false, hword,
      if_neg (by omega : ¬syncDataMax < bs.length)]
    rw [hr₂]
    cases fd with
    | none => exact ih hblocks' hn' hf₂ hs₂
    | some off =>
      dsimp only
      generalize hst : ({ s with input := i₂, buffer := bs ++ s.buffer.drop bs.length } : Session) =
        s₂ at hf₂ hs₂
      have hw := wired_writeFile path off bs s₂
      cases hwf : s₂.writeFile path off bs with
      | mk e s₃ =>
        rw [hwf] at hw
        cases e with
        | none => exact ih hblocks' hn' (hw.fed hf₂) ((hs₂.of_wired hw).advance _)
        | some e =>
          have hw' := hw.trans (wired_unlink path s₃)
          obtain ⟨s₄, hf₄, hi₄, hs₄⟩ := (hs₂.of_wired hw').fail e
          dsimp only
          rw [hf₄]
          exact ih hblocks' hn' (by rw [Fed, hi₄]; exact hw'.fed hf₂) hs₄

lemma lt_rounds {blocks : List (List UInt8)} {tail : List UInt8} {s : Session}
    (hf : Fed s (blocks.flatMap dataBytes ++ tail)) : blocks.length < s.rounds := by
  have hlen : blocks.length ≤ (blocks.flatMap dataBytes).length := by
    clear hf
    induction blocks with
    | nil => exact Nat.zero_le _
    | cons bs blocks ih =>
      rw [List.flatMap_cons, List.length_append, List.length_cons, dataBytes,
        List.length_append, length_syncmsg]
      simp only [List.length_cons, List.length_nil]
      omega
  rw [rounds, hf.2, List.length_append]
  omega

/-- The end of a transfer: its `OKAY`, or nothing more after a `FAIL`. -/
lemma served_sendFileEnd (path : Path) {fd : Option ℕ} {rest : List UInt8} {s s' : Session}
    (hf : Fed s' rest) (hs : Standing s.output fd s') :
    Served .okay rest s (sendFileEnd path (.done fd, s')) ∨
      ∃ reason, Served (.fail reason) rest s (sendFileEnd path (.done fd, s')) := by
  cases fd with
  | some off =>
    obtain ⟨s'', hw, hreply⟩ := replies_write hs.patient (syncmsg [idOkay, 0])
    left
    change Served .okay rest s (s'.write (syncmsg [idOkay, 0]))
    rw [hw]
    exact ⟨trivial, by rw [hreply.output, hs.quiet rfl]; rfl, hreply.patient,
      fun _ => hreply.fed hf, nofun⟩
  | none =>
    obtain ⟨reason, hshort, hout⟩ := hs.told rfl
    exact .inr ⟨reason, hshort, hout, hs.patient, fun _ => hf, nofun⟩

lemma served_handleSendFile (path : Path) {blocks : List (List UInt8)} {timestamp : UInt32}
    {rest : List UInt8} (hblocks : ∀ bs ∈ blocks, bs.length ≤ syncDataMax) {s : Session}
    (hf : Fed s (blocks.flatMap dataBytes ++ (syncmsg [idDone, timestamp] ++ rest)))
    (hp : Patient s.replies) :
    Served .okay rest s (s.handleSendFile path) ∨
      ∃ reason, Served (.fail reason) rest s (s.handleSendFile path) := by
  have hw := wired_openTarget path s
  unfold handleSendFile
  cases ho : s.openTarget path with
  | mk r s₁ =>
    rw [ho] at hw
    have hs₁ : Standing s.output (some 0) s₁ :=
      ⟨hw.patient hp, fun _ => hw.output, nofun⟩
    cases r with
    | error e =>
      obtain ⟨s₂, hf₂, hi₂, hs₂⟩ := hs₁.fail e
      have hfed : Fed s₂ (blocks.flatMap dataBytes ++ (syncmsg [idDone, timestamp] ++ rest)) := by
        rw [Fed, hi₂]
        exact hw.fed hf
      obtain ⟨fd, s₃, hl, hf₃, hs₃⟩ := loop_fed path hblocks (lt_rounds hfed) hfed hs₂
      dsimp only
      rw [hf₂]
      dsimp only
      rw [hl]
      exact served_sendFileEnd path hf₃ hs₃
    | ok u =>
      have hfed := hw.fed hf
      obtain ⟨fd, s₃, hl, hf₃, hs₃⟩ := loop_fed path hblocks (lt_rounds hfed) hfed hs₁
      dsimp only
      rw [hl]
      exact served_sendFileEnd path hf₃ hs₃

lemma served_handleSendLink (path : Path) {payload : List UInt8} {timestamp : UInt32}
    {rest : List UInt8} (hpayload : payload.length ≤ syncDataMax) {s : Session}
    (hf : Fed s (dataBytes payload ++ (syncmsg [idDone, timestamp] ++ rest)))
    (hp : Patient s.replies) :
    Served .okay rest s (s.handleSendLink path) ∨
      ∃ reason, Served (.fail reason) rest s (s.handleSendLink path) := by
  obtain ⟨input, hf₁, heq⟩ := handleSendLink_fed path hf hpayload
  rw [heq]
  have hw := wired_makeLink path
    { s with input := input, buffer := payload ++ s.buffer.drop payload.length }
  cases hm : makeLink path
      { s with input := input, buffer := payload ++ s.buffer.drop payload.length } with
  | mk e s₁ =>
    rw [hm] at hw
    have hp₁ : Patient s₁.replies := hw.patient hp
    have hout₁ : s₁.output = s.output := hw.output
    cases e with
    | some e =>
      obtain ⟨s₂, hf₂, hs₂⟩ := replies_failMessage hp₁ (s₁.sys.strerror e).text
      right
      refine ⟨(s₁.sys.strerror e).text, ?_⟩
      dsimp only
      rw [failErrno, hf₂]
      exact ⟨(s₁.sys.strerror e).short, by rw [hs₂.output, hout₁]; rfl, hs₂.patient, nofun,
        fun _ => trivial⟩
    | none =>
      obtain ⟨i₂, hr₂, hf₂⟩ := @read_fed _ _ rest 8 (hw.fed hf₁) (by simp)
      obtain ⟨s₃, hw₃, hs₃⟩ :=
        replies_write (s := { s₁ with input := i₂ }) hp₁ (syncmsg [idOkay, 0])
      left
      dsimp only
      rw [hr₂]
      dsimp only
      rw [wordAt_pair_zero, if_pos rfl, hw₃]
      exact ⟨trivial, by rw [hs₃.output, ← hout₁]; rfl, hs₃.patient, fun _ => hs₃.fed hf₂, nofun⟩

/-! ## One round -/

lemma Served.of_read {reply : Reply} {rest : List UInt8} {s s' : Session} {q : Bool × Session}
    (h : Served reply rest s' q) (hout : s'.output = s.output) : Served reply rest s q :=
  ⟨h.formed, by rw [h.output, hout], h.patient, h.aligned, h.ended⟩

/-- A round of the service reads one request and answers it. -/
lemma command_served {r : Request} (hr : r.WellFormed) {rest : List UInt8} {s : Session}
    (hf : Fed s (r.bytes ++ rest)) (hp : Patient s.replies) :
    ∃ reply, r.Answers reply ∧ Served reply rest s s.command := by
  cases r with
  | stat name =>
    obtain ⟨input, hc, hf'⟩ := command_fed hf hr.1
    obtain ⟨mode, size, time, hs⟩ := served_doStat (name.takeWhile (· ≠ 0)) hf' hp
    exact ⟨.stat mode size time, trivial, by rw [hc]; exact hs.of_read rfl⟩
  | list name =>
    obtain ⟨input, hc, hf'⟩ := command_fed hf hr.1
    obtain ⟨dents, hs⟩ := served_doList (name.takeWhile (· ≠ 0)) hf' hp
    exact ⟨.list dents, trivial, by rw [hc]; exact hs.of_read rfl⟩
  | recv name =>
    obtain ⟨input, hc, hf'⟩ := command_fed hf hr.1
    obtain ⟨blocks, failure, hs⟩ := served_doRecv (name.takeWhile (· ≠ 0)) hf' hp
    exact ⟨.recv blocks failure, trivial, by rw [hc]; exact hs.of_read rfl⟩
  | sendFile name blocks timestamp =>
    obtain ⟨hname, hmode, hblocks⟩ := hr
    rw [Request.bytes, List.append_assoc, List.append_assoc] at hf
    obtain ⟨input, hc, hf'⟩ := command_fed hf hname
    let path := (sendTarget (name.takeWhile (· ≠ 0))).1
    have hsend : { s with input := input }.serve idSend (name.takeWhile (· ≠ 0)) =
        ({ s with input := input }.unlink path).handleSendFile path :=
      doSend_file hmode _
    have hw := wired_unlink path { s with input := input }
    rw [hc, hsend]
    rcases served_handleSendFile path hblocks (hw.fed hf') (hw.patient hp) with hs | ⟨reason, hs⟩
    · exact ⟨.okay, trivial, hs.of_read hw.output⟩
    · exact ⟨.fail reason, trivial, hs.of_read hw.output⟩
  | sendLink name payload timestamp =>
    obtain ⟨hname, hmode, hpayload⟩ := hr
    rw [Request.bytes, List.append_assoc, List.append_assoc] at hf
    obtain ⟨input, hc, hf'⟩ := command_fed hf hname
    let path := (sendTarget (name.takeWhile (· ≠ 0))).1
    have hsend : { s with input := input }.serve idSend (name.takeWhile (· ≠ 0)) =
        ({ s with input := input }.unlink path).handleSendLink path :=
      doSend_link hmode _
    have hw := wired_unlink path { s with input := input }
    rw [hc, hsend]
    rcases served_handleSendLink path hpayload (hw.fed hf') (hw.patient hp) with hs | ⟨reason, hs⟩
    · exact ⟨.okay, trivial, hs.of_read hw.output⟩
    · exact ⟨.fail reason, trivial, hs.of_read hw.output⟩

/-- The `QUIT` ends the session without a reply. -/
lemma command_quit {name rest : List UInt8} (hname : name.length ≤ 1024) {s : Session}
    (hf : Fed s (requestBytes idQuit name ++ rest)) :
    ∃ s', s.command = (false, s') ∧ Fed s' rest ∧ s'.output = s.output := by
  obtain ⟨input, hc, hf'⟩ := command_fed hf hname
  exact ⟨_, hc, hf', rfl⟩

/-! ## The session -/

/-- The service comes back for the next request. -/
def Round (s s' : Session) : Prop := s.command = (true, s')

/-- What is on the way from a list of requests and the `QUIT` behind it. -/
def onWire (rs : List Request) (name rest : List UInt8) : List UInt8 :=
  rs.flatMap Request.bytes ++ (requestBytes idQuit name ++ rest)

lemma onWire_cons (r : Request) (rs : List Request) (name rest : List UInt8) :
    onWire (r :: rs) name rest = r.bytes ++ onWire rs name rest := by
  rw [onWire, onWire, List.flatMap_cons, List.append_assoc]

/-- The first `k` requests have been answered one by one, by the replies behind the output of
`s`. -/
def Answered (k : ℕ) (rs : List Request) (replies : List Reply) (s s' : Session) : Prop :=
  List.Forall₂ Request.Answers (rs.take k) replies ∧ (∀ reply ∈ replies, reply.WellFormed) ∧
    s'.output = s.output ++ replies.flatMap Reply.bytes

/-- Some requests have been answered and the input stands at the first byte of the next. -/
def Aligned (rs : List Request) (name rest : List UInt8) (s s' : Session) : Prop :=
  ∃ (k : ℕ) (replies : List Reply), k ≤ rs.length ∧ Answered k rs replies s s' ∧
    Fed s' (onWire (rs.drop k) name rest)

/-- Some requests have been answered; these are all and the `QUIT` has been taken off the input,
or the last reply is a failure. -/
def Closed (rs : List Request) (rest : List UInt8) (s s' : Session) : Prop :=
  ∃ (k : ℕ) (replies : List Reply), k ≤ rs.length ∧ Answered k rs replies s s' ∧
    ((k = rs.length ∧ Fed s' rest) ∨ ∃ reply, replies.getLast? = some reply ∧ reply.Failed)

lemma Answered.zero (rs : List Request) {s s' : Session} (h : s'.output = s.output) :
    Answered 0 rs [] s s' :=
  ⟨.nil, by simp, by rw [h, List.flatMap_nil, List.append_nil]⟩

lemma Answered.cons {k : ℕ} {r : Request} {rs : List Request} {reply : Reply}
    {replies : List Reply} {s s₁ s' : Session} (ha : r.Answers reply) (hw : reply.WellFormed)
    (hout : s₁.output = s.output ++ reply.bytes) (h : Answered k rs replies s₁ s') :
    Answered (k + 1) (r :: rs) (reply :: replies) s s' := by
  obtain ⟨hanswers, hformed, hout'⟩ := h
  refine ⟨.cons ha hanswers, ?_, ?_⟩
  · intro r' hr'
    rcases List.mem_cons.mp hr' with rfl | hr'
    · exact hw
    · exact hformed r' hr'
  · rw [hout', hout, List.append_assoc, List.flatMap_cons]

/-- A round that goes on has answered the first of the remaining requests. -/
lemma round_served {rs : List Request} (hrs : ∀ r ∈ rs, r.WellFormed) {name rest : List UInt8}
    (hname : name.length ≤ 1024) {s s' : Session} (hf : Fed s (onWire rs name rest))
    (hp : Patient s.replies) (h : Round s s') :
    ∃ r rs' reply, rs = r :: rs' ∧ r.Answers reply ∧ reply.WellFormed ∧
      s'.output = s.output ++ reply.bytes ∧ Fed s' (onWire rs' name rest) ∧
      Patient s'.replies := by
  cases rs with
  | nil =>
    obtain ⟨s'', hc, -, -⟩ := command_quit hname hf
    rw [Round, hc] at h
    simp at h
  | cons r rs =>
    rw [onWire_cons] at hf
    obtain ⟨reply, ha, hs⟩ := command_served (hrs r (List.mem_cons_self ..)) hf hp
    rw [h] at hs
    exact ⟨r, rs, reply, rfl, ha, hs.formed, hs.output, hs.aligned rfl, hs.patient⟩

/-- Wherever the rounds have got to, the input is aligned. -/
lemma aligned_of_rounds {name rest : List UInt8} (hname : name.length ≤ 1024) {s s' : Session}
    (h : Relation.ReflTransGen Round s s') {rs : List Request} (hrs : ∀ r ∈ rs, r.WellFormed)
    (hf : Fed s (onWire rs name rest)) (hp : Patient s.replies) : Aligned rs name rest s s' := by
  induction h using Relation.ReflTransGen.head_induction_on generalizing rs with
  | refl => exact ⟨0, [], Nat.zero_le _, .zero rs rfl, hf⟩
  | head hround _ ih =>
    obtain ⟨r, rs', reply, rfl, ha, hw, hout, hf', hp'⟩ := round_served hrs hname hf hp hround
    obtain ⟨k, replies, hk, hans, hfed⟩ :=
      ih (fun r hr => hrs r (List.mem_cons_of_mem _ hr)) hf' hp'
    exact ⟨k + 1, reply :: replies, Nat.succ_le_succ hk, hans.cons ha hw hout, hfed⟩

/-- With enough rounds the service gets to the end of its session. -/
lemma closed_serviceLoop {name rest : List UInt8} (hname : name.length ≤ 1024)
    {rs : List Request} (hrs : ∀ r ∈ rs, r.WellFormed) {n : ℕ} (hn : rs.length < n) {s : Session}
    (hf : Fed s (onWire rs name rest)) (hp : Patient s.replies) :
    Closed rs rest s (serviceLoop n s) := by
  induction rs generalizing n s with
  | nil =>
    obtain ⟨n, rfl⟩ : ∃ m, n = m + 1 := ⟨n - 1, by omega⟩
    obtain ⟨s', hc, hf', hout⟩ := command_quit hname hf
    rw [serviceLoop, hc]
    exact ⟨0, [], le_refl _, .zero _ hout, .inl ⟨rfl, hf'⟩⟩
  | cons r rs ih =>
    obtain ⟨n, rfl⟩ : ∃ m, n = m + 1 := ⟨n - 1, by omega⟩
    rw [onWire_cons] at hf
    obtain ⟨reply, ha, hs⟩ := command_served (hrs r (List.mem_cons_self ..)) hf hp
    rw [serviceLoop]
    cases hc : s.command with
    | mk goes s' =>
      rw [hc] at hs
      cases goes with
      | true =>
        have hn' : rs.length < n := by simpa using hn
        obtain ⟨k, replies, hk, hans, hend⟩ :=
          ih (fun r hr => hrs r (List.mem_cons_of_mem _ hr)) hn' (hs.aligned rfl) hs.patient
        refine ⟨k + 1, reply :: replies, Nat.succ_le_succ hk, hans.cons ha hs.formed hs.output, ?_⟩
        rcases hend with ⟨rfl, hfed⟩ | ⟨last, hlast, hfailed⟩
        · exact .inl ⟨rfl, hfed⟩
        · exact .inr ⟨last, by rw [List.getLast?_cons, hlast]; rfl, hfailed⟩
      | false =>
        exact ⟨1, [reply], Nat.succ_le_succ (Nat.zero_le _),
          .cons ha hs.formed hs.output (.zero rs rfl), .inr ⟨reply, rfl, hs.ended rfl⟩⟩

lemma lt_rounds_onWire {rs : List Request} {name rest : List UInt8} {s : Session}
    (hf : Fed s (onWire rs name rest)) : rs.length < s.rounds := by
  have hpos : ∀ r : Request, 0 < r.bytes.length := by
    intro r
    cases r <;> simp only [Request.bytes, requestBytes, List.length_append, length_syncmsg,
      List.length_cons] <;> omega
  have hlen : rs.length ≤ (rs.flatMap Request.bytes).length := by
    clear hf
    induction rs with
    | nil => exact Nat.zero_le _
    | cons r rs ih =>
      rw [List.flatMap_cons, List.length_append, List.length_cons]
      have := hpos r
      omega
  rw [rounds, hf.2, onWire, List.length_append]
  omega

/-- **Framing of a session.**  At the top of every round the input stands at the first byte of a
request and each one before it has got exactly one well-formed reply of its kind, in order; and
the service returns, having served everything up to the `QUIT` or after a failure. -/
theorem session_framing {rs : List Request} (hrs : ∀ r ∈ rs, r.WellFormed)
    {name rest : List UInt8} (hname : name.length ≤ 1024) {s : Session}
    (hf : Fed s (onWire rs name rest)) (hp : Patient s.replies) :
    (∀ s', Relation.ReflTransGen Round s s' → Aligned rs name rest s s') ∧
      Closed rs rest s s.fileSyncService :=
  ⟨fun _ h => aligned_of_rounds hname h hrs hf hp,
    closed_serviceLoop hname hrs (lt_rounds_onWire hf) hf hp⟩

/-- A session that pushes a file, asks for a `LIST` and quits. -/
def pushSession : Session where
  input := [.data (onWire [.sendFile (str "f,0100644") [str "ab"] 7, .list (str "d")] [] [])]
  buffer := List.replicate syncDataMax 0

theorem session_framing_push :
    (∀ s', Relation.ReflTransGen Round pushSession s' →
        Aligned [.sendFile (str "f,0100644") [str "ab"] 7, .list (str "d")] [] [] pushSession s') ∧
      Closed [.sendFile (str "f,0100644") [str "ab"] 7, .list (str "d")] [] pushSession
        pushSession.fileSyncService := by
  refine session_framing ?_ (by decide) (fed_data ?_ rfl) ?_
  · intro r hr
    rcases List.mem_cons.mp hr with rfl | hr
    · refine ⟨by decide, by decide +kernel, ?_⟩
      intro bs hbs
      rw [List.mem_singleton.mp hbs]
      decide
    · rw [List.mem_singleton.mp hr]
      exact ⟨by decide, trivial⟩
  · decide +kernel
  · exact fun r hr => absurd hr (List.not_mem_nil)

end Adbd.SyncSession
