import Adbd.Properties.SyncSend
import Adbd.Properties.SyncSession

/-!
# What was pushed is what is pulled

`do_recv` cuts a file into `DATA` messages where its reads end, and `handle_send_file` writes the
payloads of the messages one after the other, so the two have nothing to agree about but the
concatenation.  `Delivers` is what a host should read of a file: blocks of at most
`SYNC_DATA_MAX` bytes under their own lengths, which make up the content, and one `DONE`.

A pull delivers the file however its reads go, as long as they return it (`Covers`).  A push
that is acknowledged leaves the concatenation of its blocks where nothing was, so a pull of the
same path delivers it.
-/

namespace Adbd.SyncRoundTrip

open Bytes Syscall Session SyncSession SyncSend

/-- The reads return the content and then the end of the file. -/
inductive Covers : List FileRead → List UInt8 → Prop
  | stop : Covers [] []
  | eof {h : ([] : List UInt8).length ≤ syncDataMax} {rs : List FileRead} :
    Covers (.data [] h :: rs) []
  | intr {rs : List FileRead} {content : List UInt8} (hrs : Covers rs content) :
    Covers (.intr :: rs) content
  | data {bs : List UInt8} {h : bs.length ≤ syncDataMax} {rs : List FileRead}
    {content : List UInt8} (hbs : bs ≠ []) (hrs : Covers rs content) :
    Covers (.data bs h :: rs) (bs ++ content)

/-- A message has a payload and announces its length. -/
structure Block (bs : List UInt8) : Prop where
  ne_nil : bs ≠ []
  fits : bs.length ≤ syncDataMax
  header : (wordAt (dataBytes bs) 1).toNat = bs.length

/-- The content has been written in blocks, with a `DONE` behind them and nothing else. -/
def Delivers (content : List UInt8) (s s' : Session) : Prop :=
  ∃ blocks : List (List UInt8), (∀ bs ∈ blocks, Block bs) ∧ blocks.flatten = content ∧
    s'.output = s.output ++ (blocks.flatMap dataBytes ++ syncmsg [idDone, 0])

/-! ## Pulling -/

section Recv

variable {rs : List FileRead} {content bs : List UInt8} {s : Session}

lemma block_of_fits (hne : bs ≠ []) (hfits : bs.length ≤ syncDataMax) : Block bs where
  ne_nil := hne
  fits := hfits
  header := by
    rw [dataBytes, wordAt_syncmsg (w := UInt32.ofNat bs.length) rfl]
    exact toNat_length hfits (by decide)

/-- The loop writes one block a read. -/
lemma recvLoop_covers (hrs : Covers rs content) (hp : Patient s.replies) :
    ∃ (blocks : List (List UInt8)) (s' : Session), recvLoop rs s = (none, s') ∧
      (∀ bs ∈ blocks, Block bs) ∧ blocks.flatten = content ∧
      Says (blocks.flatMap dataBytes) s s' := by
  induction hrs generalizing s with
  | stop => exact ⟨[], s, rfl, by simp, rfl, by simp, hp, rfl⟩
  | eof => exact ⟨[], s, by rw [recvLoop, if_pos rfl], by simp, rfl, by simp, hp, rfl⟩
  | intr _ ih => exact ih hp
  | @data bs hfits rs content hne _ ih =>
    obtain ⟨s₁, hw₁, hs₁⟩ := replies_write
      (s := { s with buffer := bs ++ s.buffer.drop bs.length }) hp
      (syncmsg [idData, UInt32.ofNat bs.length])
    obtain ⟨s₂, hw₂, hs₂⟩ := replies_write hs₁.patient bs
    obtain ⟨blocks, s', hl, hblocks, hflat, hs⟩ := ih hs₂.patient
    refine ⟨bs :: blocks, s', ?_, ?_, by rw [List.flatten_cons, hflat], ?_⟩
    · rw [recvLoop, if_neg hne, hw₁]
      dsimp only
      rw [hw₂]
      exact hl
    · exact List.forall_mem_cons.mpr ⟨block_of_fits hne hfits, hblocks⟩
    · have hreply := (hs₁.trans hs₂).trans hs
      rw [List.flatMap_cons]
      exact ⟨hreply.output, hreply.patient, hreply.input⟩

/-- A pull delivers what the reads of the file return. -/
lemma doRecv_delivers (path : Path) (hsrc : s.sys.sources.head? = some (.ok rs))
    (hrs : Covers rs content) (hp : Patient s.replies) :
    (s.doRecv path).1 = true ∧ Delivers content s (s.doRecv path).2 := by
  obtain ⟨s₁, hopen, hw₁⟩ : ∃ s', s.openSource path = (.ok rs, s') ∧ Wired s s' :=
    ⟨_, by rw [openSource, hsrc]; rfl, {}⟩
  obtain ⟨blocks, s₂, hl, hblocks, hflat, hs₂⟩ := recvLoop_covers hrs (hw₁.patient hp)
  obtain ⟨s₃, hw₃, hs₃⟩ := replies_write hs₂.patient (syncmsg [idDone, 0])
  have hrun : s.doRecv path = (true, s₃) := by
    rw [doRecv, hopen]
    dsimp only
    rw [hl]
    exact hw₃
  rw [hrun]
  exact ⟨rfl, blocks, hblocks, hflat, (Says.of_wired hw₁ (hs₂.trans hs₃)).output⟩

end Recv

/-! ## Pushing -/

section Send

variable {path : Path} {s : Session} {bss : List (List UInt8)} {timestamp : UInt32}
  {rest : List UInt8} {input : List ReadResult} {n : ℕ}

/-- A transfer that arrives, however it is cut. -/
lemma blocks_flowing (hbss : ∀ bs ∈ bss, bs.length ≤ syncDataMax) (hn : bss.length < n)
    (hi : Flowing input)
    (hb : bytesOf input = bss.flatMap dataBytes ++ (syncmsg [idDone, timestamp] ++ rest)) :
    blocks n input = (bss, true) := by
  induction bss generalizing n input with
  | nil =>
    obtain ⟨n, rfl⟩ : ∃ m, n = m + 1 := ⟨n - 1, by simp at hn; omega⟩
    obtain ⟨i, hr, -⟩ := @readFull_append 8 _ _ rest hi hb (by simp)
    rw [blocks, readx, hr]
    dsimp only
    rw [wordAt_pair_zero, if_pos (by decide)]
    rfl
  | cons bs bss ih =>
    obtain ⟨n, rfl⟩ : ∃ m, n = m + 1 := ⟨n - 1, by simp at hn; omega⟩
    have hlen : bs.length ≤ syncDataMax := hbss bs (List.mem_cons_self ..)
    have hword : (UInt32.ofNat bs.length).toNat = bs.length := toNat_length hlen (by decide)
    rw [List.flatMap_cons, dataBytes, List.append_assoc, List.append_assoc] at hb
    obtain ⟨i₁, hr₁, hb₁, hi₁⟩ := readFull_append (n := 8) hi hb (by simp)
    obtain ⟨i₂, hr₂, hb₂, hi₂⟩ := readFull_append hi₁ hb₁ rfl
    rw [blocks, readx, hr₁]
    simp only [wordAt_pair_zero, wordAt_pair_one, ne_eq, not_true_eq_false, if_false, hword,
      if_neg (by omega : ¬syncDataMax < bs.length)]
    rw [readx, hr₂]
    dsimp only
    rw [ih (fun b hb => hbss b (List.mem_cons_of_mem _ hb)) (by simpa using hn) hi₂ hb₂]

/-- The whole transfer is sent. -/
lemma sent_fed (hbss : ∀ bs ∈ bss, bs.length ≤ syncDataMax)
    (hf : Fed s (bss.flatMap dataBytes ++ (syncmsg [idDone, timestamp] ++ rest))) :
    sent s = (bss, true) :=
  blocks_flowing hbss (lt_rounds hf) hf.1 hf.2

/-- A file that was not there is empty when it is opened. -/
lemma eq_nil_of_found {opens : List (Option Errno)} {c : List UInt8}
    (h : found none opens = .ok c) : c = [] := by
  have hcreate : ∀ {e c}, create none e = .ok c → c = [] := by
    intro e c hc
    cases e <;> simp_all [create]
  have hreopen : ∀ {e c}, reopen none e ≠ .ok c := by
    intro e c
    cases e <;> simp [reopen]
  unfold found at h
  dsimp only at h
  split at h
  · exact absurd h hreopen
  · split at h
    · exact hcreate h
    · exact hcreate h

/-- After the `OKAY` the file holds what was sent. -/
lemma files_of_acked {name : Path} (hfile : (sendTarget name).2 = false)
    (habsent : s.sys.files (sendTarget name).1 = none) (hacked : Acked s (s.doSend name).2) :
    (s.doSend name).2.sys.files (sendTarget name).1 = some (sent s).1.flatten := by
  rw [doSend_file hfile] at hacked ⊢
  generalize (sendTarget name).1 = path at habsent hacked ⊢
  have hheld : held path s = none := by
    rw [held, habsent]
    split <;> rfl
  have hout := handleSendFile_outcome path s
  rw [hheld] at hout
  cases hfound : found none s.sys.opens with
  | error e =>
    rw [hfound] at hout
    exact absurd hacked hout.1
  | ok c =>
    obtain rfl := eq_nil_of_found hfound
    rw [hfound] at hout
    obtain ⟨hfiles, hiff⟩ := hout
    obtain ⟨hboth, -⟩ := Bool.and_eq_true_iff.mp (hiff.mp hacked)
    obtain ⟨hdone, hall⟩ := Bool.and_eq_true_iff.mp hboth
    have hcl : cleaned s = false := by simp [cleaned, hall, hdone]
    rw [hfiles, hcl, overlay, List.drop_nil, List.append_nil, written, taken_all hall]
    rfl

/-- A file system that takes every block takes them all. -/
lemma taken_patient {writes : List WriteResult} (hw : Patient writes) :
    (taken bss writes).2 = true := by
  induction bss generalizing writes with
  | nil => rfl
  | cons bs bss ih =>
    obtain ⟨rest, hwrite, hrest⟩ := writeFull_patient hw (le_refl bs.length)
    rw [taken, writex, hwrite]
    exact ih hrest

/-- A push that the file system lets through is acknowledged. -/
lemma acked_of_patient {name : Path} (hfile : (sendTarget name).2 = false)
    (habsent : s.sys.files (sendTarget name).1 = none)
    (hbss : ∀ bs ∈ bss, bs.length ≤ syncDataMax)
    (hf : Fed s (bss.flatMap dataBytes ++ (syncmsg [idDone, timestamp] ++ rest)))
    (hp : Patient s.replies) (hopen : s.sys.opens.head?.join = none)
    (hw : Patient s.sys.writes) : Acked s (s.doSend name).2 := by
  rw [doSend_file hfile]
  generalize (sendTarget name).1 = path at habsent ⊢
  have hheld : held path s = none := by
    rw [held, habsent]
    split <;> rfl
  have hfound : found none s.sys.opens = .ok [] := by
    rw [found, hopen]
    rfl
  have hout := handleSendFile_outcome path s
  rw [hheld, hfound] at hout
  obtain ⟨replies, hokay, -⟩ := write_patient hp (syncmsg [idOkay, 0])
  rw [hout.acked, written, sent_fed hbss hf, okayDelivered, hokay]
  simp only [taken_patient hw, Bool.and_self]

/-- A push leaves the host listening. -/
lemma patient_doSend {name : Path} (hfile : (sendTarget name).2 = false)
    (hbss : ∀ bs ∈ bss, bs.length ≤ syncDataMax)
    (hf : Fed s (bss.flatMap dataBytes ++ (syncmsg [idDone, timestamp] ++ rest)))
    (hp : Patient s.replies) : Patient (s.doSend name).2.replies := by
  have hw := wired_unlink (sendTarget name).1 s
  rw [doSend_file hfile]
  obtain h | ⟨reason, h⟩ :=
    served_handleSendFile (sendTarget name).1 hbss (hw.fed hf) (hw.patient hp)
  · exact h.patient
  · exact h.patient

end Send

/-! ## Both -/

/-- A pull returns the file, a push that the file system lets through is acknowledged, and a pull
after an acknowledged push of what was not there returns what was pushed. -/
structure ReturnsFile : Prop where
  recv : ∀ (s : Session) (path : Path) (rs : List FileRead) (content : List UInt8),
    Patient s.replies → s.sys.sources.head? = some (.ok rs) → Covers rs content →
      (s.doRecv path).1 = true ∧ Delivers content s (s.doRecv path).2
  send : ∀ (s : Session) (name : Path) (blocks : List (List UInt8)) (timestamp : UInt32)
    (rest : List UInt8), (sendTarget name).2 = false →
      s.sys.files (sendTarget name).1 = none → (∀ bs ∈ blocks, bs.length ≤ syncDataMax) →
      Fed s (blocks.flatMap dataBytes ++ (syncmsg [idDone, timestamp] ++ rest)) →
      Patient s.replies → s.sys.opens.head?.join = none → Patient s.sys.writes →
        Acked s (s.doSend name).2
  roundTrip : ∀ (s : Session) (name : Path) (blocks : List (List UInt8)) (timestamp : UInt32)
    (rest : List UInt8) (rs : List FileRead), (sendTarget name).2 = false →
      s.sys.files (sendTarget name).1 = none → (∀ bs ∈ blocks, bs.length ≤ syncDataMax) →
      Fed s (blocks.flatMap dataBytes ++ (syncmsg [idDone, timestamp] ++ rest)) →
      Patient s.replies → Acked s (s.doSend name).2 →
      (s.doSend name).2.sys.sources.head? = some (.ok rs) →
      (∀ c, (s.doSend name).2.sys.files (sendTarget name).1 = some c → Covers rs c) →
        ((s.doSend name).2.doRecv (sendTarget name).1).1 = true ∧
          Delivers blocks.flatten (s.doSend name).2
            ((s.doSend name).2.doRecv (sendTarget name).1).2

/-- **What was pushed is what is pulled.** -/
theorem returnsFile : ReturnsFile where
  recv _ path _ _ hp hsrc hrs := doRecv_delivers path hsrc hrs hp
  send _ _ _ _ _ hfile habsent hbss hf hp hopen hw :=
    acked_of_patient hfile habsent hbss hf hp hopen hw
  roundTrip s name blocks timestamp rest rs hfile habsent hbss hf hp hacked hsrc hcovers := by
    have hcontent := files_of_acked hfile habsent hacked
    rw [sent_fed hbss hf] at hcontent
    exact doRecv_delivers _ hsrc (hcovers _ hcontent) (patient_doSend hfile hbss hf hp)

/-- A host that pushes `hello` in two blocks, and the read of a pull. -/
def helloSession : Session where
  sys := { sources := [.ok [.intr, .data (str "hello") (by decide)]] }
  input := [.data (dataBytes (str "he") ++ dataBytes (str "llo") ++ syncmsg [idDone, 0])]
  buffer := List.replicate syncDataMax 0

/-- It pulls `hello`. -/
theorem returnsFile_hello :
    Delivers (str "hello") (helloSession.doSend (str "f,0644")).2
      ((helloSession.doSend (str "f,0644")).2.doRecv (str "f")).2 := by
  have hfile : (helloSession.doSend (str "f,0644")).2.sys.files (str "f") = some (str "hello") := by
    decide +kernel
  refine (returnsFile.roundTrip helloSession (str "f,0644") [str "he", str "llo"] 0 []
    [.intr, .data (str "hello") (by decide)] (by decide +kernel) rfl (by decide)
    (fed_data (by decide) (by decide +kernel)) (by simp [helloSession, Patient])
    (by unfold Acked; decide +kernel) rfl ?_).2
  intro c hc
  obtain rfl : str "hello" = c := Option.some.inj (hfile.symm.trans hc)
  exact .intr (.data (by decide) .stop)

end Adbd.SyncRoundTrip
