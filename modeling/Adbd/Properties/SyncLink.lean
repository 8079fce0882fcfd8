import Adbd.Model.FileSyncSpec

/-!
# What a pushed symbolic link points to

`handle_send_link` reads the `DATA` of its request to the front of the transfer buffer and hands
the buffer itself to `symlink`.  The host ends the text with a NUL; nothing in the service does.
If the payload has a NUL in it the call sees the payload up to there and nothing else.  If it has
none, the call reads on through whatever earlier requests of the session, or `malloc`, left
behind the payload, and the link gets a target nobody asked for.

`OwnTarget name payload` says that, whatever state a session is in when the request arrives,
every call of `symlink` made for it gets the payload up to its first NUL or its end, and reads
nothing behind the payload.  It holds of exactly the payloads that contain a NUL
(`ownTarget_iff`).
-/

namespace Adbd.SyncLink

open Bytes Syscall Session

/-! ## The property -/

/-- How much of the buffer a call reads: its target and the terminator. -/
def extent (call : SymlinkCall) : ℕ := call.target.length + 1

/-- The calls of `symlink` in a round of the service. -/
def linkCalls (s : Session) : List SymlinkCall := s.command.2.links.drop s.links.length

/-- A request to make a link, as far as the service accepts it. -/
structure LinkRequest (name payload : List UInt8) : Prop where
  named : name.length ≤ 1024
  link : (sendTarget (name.takeWhile (· ≠ 0))).2 = true
  fits : payload.length ≤ syncDataMax

/-- The next request of the session is the link request. -/
def Asked (name payload rest : List UInt8) (s : Session) : Prop :=
  Fed s (requestBytes idSend name ++ (dataBytes payload ++ rest))

/-- In every session, whatever happened in it before, the link is made with the payload up to
its first NUL or its end, and the buffer behind the payload is not read. -/
def OwnTarget (name payload : List UInt8) : Prop :=
  ∀ (s : Session) (rest : List UInt8), Asked name payload rest s →
    ∀ call ∈ linkCalls s,
      call.target = payload.takeWhile (· ≠ 0) ∧ extent call ≤ payload.length

/-! ## Frames -/

/-- The calls of `symlink` and the buffer are as they were. -/
structure Unlinked (s s' : Session) : Prop where
  links : s'.links = s.links := by rfl
  buffer : s'.buffer = s.buffer := by rfl

lemma unlinked_unlink (path : Path) (s : Session) : Unlinked s (s.unlink path) := by
  unfold unlink
  cases s.sys.unlinks.head?.join <;> exact {}

lemma unlinked_mkdirs (path : Path) (s : Session) : Unlinked s (s.mkdirs path).2 := by
  obtain ⟨ok, rest, h⟩ := mkdirs_eq path s
  rw [h]
  exact {}

lemma links_read {n : ℕ} {s s' : Session} {r : Option (List UInt8)}
    (h : s.read n = (r, s')) : s'.links = s.links :=
  congrArg (fun q : Option (List UInt8) × Session => q.2.links) h.symm

lemma links_write {bs : List UInt8} {s s' : Session} {ok : Bool}
    (h : s.write bs = (ok, s')) : s'.links = s.links :=
  congrArg (fun q : Bool × Session => q.2.links) h.symm

lemma links_failMessage (reason : List UInt8) (s : Session) :
    (s.failMessage reason).2.links = s.links := by
  unfold failMessage
  split
  · next h => exact links_write h
  · next s' h => exact (links_write (s := s') rfl).trans (links_write h)

/-! ## The calls of one request -/

/-- The call `symlink(buffer,path)`. -/
def callOf (path : Path) (s : Session) : SymlinkCall := ⟨s.buffer.takeWhile (· ≠ 0), path⟩

/-- One call, or two if the directory was missing, all of them with the same argument. -/
lemma links_makeLink (path : Path) (s : Session) :
    ∃ k, (s.makeLink path).2.links = s.links ++ List.replicate (k + 1) (callOf path s) := by
  unfold makeLink
  split
  · next s' h =>
    have hs' : s'.links = s.links ++ [callOf path s] :=
      congrArg (fun q : Option Errno × Session => q.2.links) h.symm
    have hb : s'.buffer = s.buffer :=
      congrArg (fun q : Option Errno × Session => q.2.buffer) h.symm
    have hm := unlinked_mkdirs path s'
    have hcall : callOf path (s'.mkdirs path).2 = callOf path s := by
      rw [callOf, callOf, hm.buffer, hb]
    refine ⟨1, ?_⟩
    change (s'.mkdirs path).2.links ++ [callOf path (s'.mkdirs path).2] = _
    rw [hm.links, hs', hcall, List.append_assoc]
    rfl
  · exact ⟨0, rfl⟩

/-- The calls of a link request whose `DATA` has arrived. -/
lemma links_handleSendLink {s : Session} {payload rest : List UInt8} (path : Path)
    (h : Fed s (dataBytes payload ++ rest)) (hp : payload.length ≤ syncDataMax) :
    ∃ k, (s.handleSendLink path).2.links = s.links ++ List.replicate (k + 1)
      ⟨(payload ++ s.buffer.drop payload.length).takeWhile (· ≠ 0), path⟩ := by
  obtain ⟨input, -, heq⟩ := handleSendLink_fed path h hp
  obtain ⟨k, hk⟩ := links_makeLink path
    { s with input := input, buffer := payload ++ s.buffer.drop payload.length }
  refine ⟨k, ?_⟩
  rw [heq]
  refine Eq.trans ?_ hk
  -- nothing after the calls adds to their list
  split
  · next e s₁ hm =>
    rw [hm]
    exact links_failMessage _ s₁
  · next s₁ hm =>
    rw [hm]
    split
    · next hr => exact links_read hr
    · next hdr s₂ hr =>
      split
      · exact (links_write (s := s₂) rfl).trans (links_read hr)
      · exact (links_failMessage _ s₂).trans (links_read hr)

/-- The calls of a round that serves a link request: at least one, all alike. -/
lemma linkCalls_eq {name payload rest : List UInt8} {s : Session}
    (h : LinkRequest name payload) (hs : Asked name payload rest s) :
    ∃ k path, linkCalls s = List.replicate (k + 1)
      ⟨(payload ++ s.buffer.drop payload.length).takeWhile (· ≠ 0), path⟩ := by
  obtain ⟨input, hcmd, hfed⟩ := command_fed hs h.named
  let target := (sendTarget (name.takeWhile (· ≠ 0))).1
  have hsend : { s with input := input }.serve idSend (name.takeWhile (· ≠ 0)) =
      ({ s with input := input }.unlink target).handleSendLink target :=
    doSend_link h.link _
  have hwired := wired_unlink target { s with input := input }
  have hun := unlinked_unlink target { s with input := input }
  obtain ⟨k, hk⟩ := links_handleSendLink target (hwired.fed hfed) h.fits
  refine ⟨k, target, ?_⟩
  rw [linkCalls, hcmd, hsend, hk, hun.links, hun.buffer]
  exact List.drop_left

/-! ## Which links are made as asked -/

lemma length_takeWhile_lt {bs : List UInt8} (h : 0 ∈ bs) :
    (bs.takeWhile (· ≠ 0)).length < bs.length := by
  induction bs with
  | nil => simp at h
  | cons b bs ih =>
    by_cases hb : b = 0
    · simp [hb]
    · have hmem : 0 ∈ bs := (List.mem_cons.mp h).resolve_left (Ne.symm hb)
      rw [List.takeWhile_cons_of_pos (by simp [hb]), List.length_cons, List.length_cons]
      exact Nat.succ_lt_succ (ih hmem)

lemma length_le_takeWhile {bs : List UInt8} (h : 0 ∉ bs) (rest : List UInt8) :
    bs.length ≤ ((bs ++ rest).takeWhile (· ≠ 0)).length := by
  have hall : ∀ b ∈ bs, decide (b ≠ 0) = true := by
    intro b hb
    exact decide_eq_true fun h0 => h (h0 ▸ hb)
  rw [List.takeWhile_append_of_pos hall, List.length_append]
  exact Nat.le_add_right _ _

/-- A session in which the host has sent one link request and nothing else yet. -/
def askedSession (name payload : List UInt8) : Session where
  input := [.data (requestBytes idSend name ++ dataBytes payload)]
  buffer := List.replicate syncDataMax 0

lemma asked_askedSession (name payload : List UInt8) :
    Asked name payload [] (askedSession name payload) := by
  rw [Asked, List.append_nil]
  exact fed_data (by simp [requestBytes, syncmsg, leBytes]) rfl

/-- **The link is made as asked exactly when its payload contains a NUL.**  Without one the
calls read the buffer behind the payload in every session. -/
theorem ownTarget_iff {name payload : List UInt8} (h : LinkRequest name payload) :
    OwnTarget name payload ↔ 0 ∈ payload := by
  constructor
  · intro hown
    by_contra hnul
    obtain ⟨k, path, hcalls⟩ := linkCalls_eq h (asked_askedSession name payload)
    have hmem := hown _ _ (asked_askedSession name payload) _
      (by rw [hcalls]; exact List.mem_replicate.mpr ⟨by omega, rfl⟩)
    have hle := length_le_takeWhile hnul
      ((askedSession name payload).buffer.drop payload.length)
    have hext := hmem.2
    rw [extent] at hext
    dsimp only at hext
    omega
  · intro hnul s rest hs call hcall
    obtain ⟨k, path, hcalls⟩ := linkCalls_eq h hs
    rw [hcalls] at hcall
    rw [(List.mem_replicate.mp hcall).2, extent, Bytes.takeWhile_append_of_mem hnul]
    exact ⟨rfl, length_takeWhile_lt hnul⟩

/-- A session in which only a link is pushed, its target without a NUL. -/
def freshSession : Session where
  input := [.data (requestBytes idSend (str "l,0120777") ++ dataBytes (str "ab") ++
    syncmsg [idDone, 0])]
  buffer := List.replicate syncDataMax 0

/-- The same after a file has been pushed. -/
def usedSession : Session where
  input := [.data (requestBytes idSend (str "f,0100644") ++ dataBytes (str "wxyz") ++
    syncmsg [idDone, 0] ++ requestBytes idSend (str "l,0120777") ++ dataBytes (str "ab") ++
    syncmsg [idDone, 0])]
  buffer := List.replicate syncDataMax 0

/-- One link request, two targets: the second ends with what the file left in the buffer. -/
theorem target_from_residue :
    (fileSyncService freshSession).links = [⟨str "ab", str "l"⟩] ∧
      (fileSyncService usedSession).links = [⟨str "abyz", str "l"⟩] := by
  decide +kernel

/-- A payload that ends with a NUL is taken as it is. -/
theorem ownTarget_terminated : OwnTarget (str "l,0120777") (str "ab" ++ [0]) :=
  (ownTarget_iff ⟨by decide, by decide +kernel, by decide⟩).mpr (by decide)

end Adbd.SyncLink
