import Adbd.Model.SyncBuffers
import Adbd.Properties.SyncSession

/-!
# Where the sync service stores

Three bounds have to fit together: a path of a request has at most 1024 bytes, `do_list` skips
names of more than 256, and its array has room for a path, a `/` and a name of these lengths, but
not for the NUL behind them.  The lemmas `mkdirs_eq` to `doRecv_eq` say that with checked stores
the functions that work in `name` and in the transfer buffer do what they do without;
`doList_eq` and `doList_overrun` tell the listings that go past the end of `tmp` from the others.
-/

namespace Adbd.SyncBuffers

open Bytes Syscall Memory SyncSession

/-! ## Stores that are inside -/

section Inside

variable {a : SyncArray} {i count n : ℕ} {path : Path}

lemma touch_eq (h : i + count ≤ a.size) : a.touch i count = .ok () := by
  rw [SyncArray.touch, touch_ok h]
  rfl

lemma touch_error (hcount : count ≠ 0) (h : a.size < i + count) :
    a.touch i count = .error (a, ⟨max i a.size⟩) := by
  rw [SyncArray.touch, touch_overrun hcount h]
  rfl

lemma receive_eq (h : n ≤ a.size) (s : Session) : receive a n s = .ok () := by
  have hle := received_le n s.input
  exact touch_eq (by omega)

lemma mkdirEach_eq {ds : List Path} (h : ∀ d ∈ ds, d.length ≤ 1024) (s : Session) :
    mkdirEach ds s = .ok (Session.mkdirEach ds s) := by
  induction ds generalizing s with
  | nil => rfl
  | cons d ds ih =>
    have hd : SyncArray.name.touch d.length 1 = .ok () :=
      touch_eq (Nat.succ_le_succ (h d (List.mem_cons_self ..)))
    have hds : ∀ d ∈ ds, d.length ≤ 1024 := fun d hd => h d (List.mem_cons_of_mem _ hd)
    rw [mkdirEach, hd, Session.mkdirEach]
    cases s.mkdir d with
    | mk e s₁ =>
      cases e with
      | none => exact ih hds s₁
      | some e =>
        dsimp only [bind, Except.bind]
        split
        · rfl
        · exact ih hds s₁

lemma mkdirs_eq (h : path.length ≤ 1024) (s : Session) : mkdirs path s = .ok (s.mkdirs path) := by
  rw [mkdirs, Session.mkdirs]
  split
  · rfl
  · apply mkdirEach_eq
    intro d hd
    obtain ⟨i, -, rfl⟩ := List.mem_map.mp hd
    exact (List.length_take_le' i path).trans h

lemma createAgain_eq (h : path.length ≤ 1024) (r : Except Errno Unit × Session) :
    createAgain path r = .ok (Session.createAgain path r) := by
  obtain ⟨r, s⟩ := r
  rcases r with (_ | _ | _) | _
  · change (mkdirs path s >>= fun p => pure (p.2.openCreate path)) = _
    rw [mkdirs_eq h]
    rfl
  all_goals rfl

lemma openTarget_eq (h : path.length ≤ 1024) (s : Session) :
    openTarget path s = .ok (s.openTarget path) := by
  rw [openTarget, createAgain_eq h]
  rfl

lemma makeLink_eq (h : path.length ≤ 1024) (s : Session) :
    makeLink path s = .ok (s.makeLink path) := by
  rw [makeLink, Session.makeLink]
  cases s.symlink path with
  | mk e s₁ =>
    rcases e with _ | _ | _ | _
    · rfl
    · change (mkdirs path s₁ >>= fun p => pure (p.2.symlink path)) = _
      rw [mkdirs_eq h]
      rfl
    all_goals rfl

/-- Blocks are received into the buffer only after the test of their length. -/
lemma sendFileLoop_eq (path : Path) (n : ℕ) (fd : Option ℕ) (s : Session) :
    sendFileLoop path n fd s = .ok (Session.sendFileLoop path n fd s) := by
  induction n generalizing fd s with
  | zero => rfl
  | succ n ih =>
    rw [sendFileLoop, Session.sendFileLoop]
    cases s.read 8 with
    | mk hdr s₁ =>
      cases hdr with
      | none => rfl
      | some hdr =>
        dsimp only
        split
        · split <;> rfl
        split
        · rfl
        case isFalse hlen =>
          rw [receive_eq (a := .buffer) (Nat.le_of_not_lt hlen)]
          cases s₁.readBuffer (wordAt hdr 1).toNat with
          | mk bs s₂ =>
            cases bs with
            | none => rfl
            | some bs =>
              cases fd with
              | none => exact ih none s₂
              | some off =>
                dsimp only [bind, Except.bind]
                cases s₂.writeFile path off bs with
                | mk e s₃ =>
                  cases e with
                  | none => exact ih _ s₃
                  | some e =>
                    dsimp only
                    cases (s₃.unlink path).failErrno e with
                    | mk ok s₄ =>
                      cases ok with
                      | false => rfl
                      | true => exact ih none s₄

lemma handleSendFile_eq (h : path.length ≤ 1024) (s : Session) :
    handleSendFile path s = .ok (s.handleSendFile path) := by
  have hrest : ∀ fd s, sendFileRest path fd s =
      .ok (Session.sendFileEnd path (Session.sendFileLoop path s.rounds fd s)) := by
    intro fd s
    rw [sendFileRest, sendFileLoop_eq]
    rfl
  rw [handleSendFile, openTarget_eq h, Session.handleSendFile]
  cases s.openTarget path with
  | mk r s₁ =>
    cases r with
    | ok _ => exact hrest (some 0) s₁
    | error e =>
      dsimp only [bind, Except.bind]
      cases s₁.failErrno e with
      | mk ok s₂ =>
        cases ok with
        | false => rfl
        | true => exact hrest none s₂

lemma handleSendLink_eq (h : path.length ≤ 1024) (s : Session) :
    handleSendLink path s = .ok (s.handleSendLink path) := by
  rw [handleSendLink, Session.handleSendLink]
  cases s.read 8 with
  | mk hdr s₁ =>
    cases hdr with
    | none => rfl
    | some hdr =>
      dsimp only
      split
      · rfl
      split
      · rfl
      case isFalse hlen =>
        rw [receive_eq (a := .buffer) (Nat.le_of_not_lt hlen)]
        cases s₁.readBuffer (wordAt hdr 1).toNat with
        | mk bs s₂ =>
          cases bs with
          | none => rfl
          | some bs =>
            dsimp only [bind, Except.bind]
            rw [makeLink_eq h]
            cases s₂.makeLink path with
            | mk e s₃ =>
              cases e with
              | some e => rfl
              | none =>
                dsimp only
                cases s₃.read 8 with
                | mk hdr s₄ =>
                  cases hdr with
                  | none => rfl
                  | some hdr =>
                    dsimp only
                    split <;> rfl

/-- The part of a path in front of its last comma is shorter than the path. -/
lemma strrchr_length {c : UInt8} {bs front rest : List UInt8}
    (h : strrchr c bs = some (front, rest)) : front.length < bs.length := by
  have hle := (List.dropWhile_suffix (l := bs.reverse) (· ≠ c)).length_le
  rw [strrchr] at h
  cases hd : bs.reverse.dropWhile (· ≠ c) with
  | nil =>
    rw [hd] at h
    cases h
  | cons x before =>
    rw [hd] at h hle
    cases h
    rw [List.length_cons, List.length_reverse] at hle
    rw [List.length_reverse]
    omega

lemma cutPath_eq (h : path.length ≤ 1024) : cutPath path = .ok () := by
  rw [cutPath]
  split
  · rfl
  · next hcut =>
      have hlt := strrchr_length hcut
      exact touch_eq (show _ + 1 ≤ 1025 by omega)

lemma sendTarget_length (path : Path) : (sendTarget path).1.length ≤ path.length := by
  rw [sendTarget]
  split
  · exact Nat.le_refl _
  · next hcut =>
      have hlt := strrchr_length hcut
      split <;> exact hlt.le

lemma doSend_eq (h : path.length ≤ 1024) (s : Session) : doSend path s = .ok (s.doSend path) := by
  have htarget : (sendTarget path).1.length ≤ 1024 := (sendTarget_length path).trans h
  rw [doSend, cutPath_eq h, Session.doSend]
  dsimp only [bind, Except.bind]
  split
  · exact handleSendLink_eq htarget _
  · exact handleSendFile_eq htarget _

/-- No read asks for more than the buffer has room for. -/
lemma recvLoop_eq (rs : List FileRead) (s : Session) : recvLoop rs s = .ok (s.recvLoop rs) := by
  induction rs generalizing s with
  | nil => rfl
  | cons r rs ih =>
    cases r with
    | intr => exact ih s
    | fail e => rfl
    | data bs hbs =>
      have hread : SyncArray.buffer.touch 0 bs.length = .ok () :=
        touch_eq (show 0 + bs.length ≤ syncDataMax by omega)
      rw [recvLoop, hread, Session.recvLoop]
      dsimp only [bind, Except.bind]
      split
      · rfl
      cases Session.write (syncmsg [idData, UInt32.ofNat bs.length])
          { s with buffer := bs ++ s.buffer.drop bs.length } with
      | mk ok s₁ =>
        cases ok with
        | false => rfl
        | true =>
          dsimp only
          cases s₁.write bs with
          | mk ok s₂ =>
            cases ok with
            | false => rfl
            | true => exact ih s₂

lemma doRecv_eq (path : Path) (s : Session) : doRecv path s = .ok (s.doRecv path) := by
  rw [doRecv, Session.doRecv]
  cases s.openSource path with
  | mk r s₁ =>
    cases r with
    | error e => rfl
    | ok rs =>
      dsimp only
      rw [recvLoop_eq]
      cases s₁.recvLoop rs with
      | mk ok s₂ => cases ok <;> rfl

end Inside

/-! ## `do_list` -/

section List

variable {path : Path} {de d : Dirent} {des : List Dirent} {s : Session}

/-- The longest path and the longest name `do_list` does not skip. -/
def Overlong (path : Path) (de : Dirent) : Prop := path.length = 1024 ∧ de.name.length = 256

/-- The `readdir` loop comes to the entry `de`: the host has taken all that was written for the
entries in front of it. -/
def ComesTo (path : Path) (de : Dirent) (des : List Dirent) (s : Session) : Prop :=
  ∃ pre post s', des = pre ++ de :: post ∧ s.listEntries path pre = (true, s')

/-- One entry, then the others unless a write has failed. -/
lemma session_listEntries_cons (path : Path) (d : Dirent) (des : List Dirent) (s : Session) :
    s.listEntries path (d :: des) =
      bif (s.listEntries path [d]).1 then (s.listEntries path [d]).2.listEntries path des
      else s.listEntries path [d] := by
  simp only [Session.listEntries]
  split
  · rfl
  cases s.lstat (path ++ [0x2f] ++ d.name) with
  | mk st s₁ =>
    cases st with
    | none => rfl
    | some st =>
      dsimp only
      cases s₁.write (syncmsg (Session.statWords idDent st ++ [UInt32.ofNat d.name.length])) with
      | mk ok s₂ =>
        cases ok with
        | false => rfl
        | true =>
          dsimp only
          cases s₂.write d.name with
          | mk ok s₃ => cases ok <;> rfl

/-- The same with checked stores, if the name of the entry fits behind the path. -/
lemma listEntries_cons (hpath : path.length ≤ 1024) (h : ¬Overlong path d) (des : List Dirent)
    (s : Session) :
    listEntries path (d :: des) s =
      bif (s.listEntries path [d]).1 then listEntries path des (s.listEntries path [d]).2
      else .ok (s.listEntries path [d]) := by
  simp only [listEntries, Session.listEntries]
  split
  · rfl
  have hroom : SyncArray.tmp.touch (path.length + 1) (d.name.length + 1) = .ok () := by
    apply touch_eq
    rw [Overlong] at h
    change path.length + 1 + (d.name.length + 1) ≤ 1281
    omega
  rw [hroom]
  dsimp only [bind, Except.bind]
  cases s.lstat (path ++ [0x2f] ++ d.name) with
  | mk st s₁ =>
    cases st with
    | none => rfl
    | some st =>
      dsimp only
      cases s₁.write (syncmsg (Session.statWords idDent st ++ [UInt32.ofNat d.name.length])) with
      | mk ok s₂ =>
        cases ok with
        | false => rfl
        | true =>
          dsimp only
          cases s₂.write d.name with
          | mk ok s₃ => cases ok <;> rfl

/-- Otherwise its NUL is stored at the first index behind the array. -/
lemma listEntries_overlong (h : Overlong path d) (des : List Dirent) (s : Session) :
    listEntries path (d :: des) s = .error (.tmp, ⟨1281⟩) := by
  obtain ⟨hpath, hname⟩ := h
  have hlong : SyncArray.tmp.touch (path.length + 1) (d.name.length + 1) =
      .error (.tmp, ⟨max (path.length + 1) 1281⟩) := by
    apply touch_error (Nat.succ_ne_zero _)
    change 1281 < path.length + 1 + (d.name.length + 1)
    omega
  rw [listEntries, if_neg (by omega), hlong, hpath]
  rfl

lemma comesTo_cons :
    ComesTo path de (d :: des) s ↔
      d = de ∨ ((s.listEntries path [d]).1 = true ∧
        ComesTo path de des (s.listEntries path [d]).2) := by
  constructor
  · rintro ⟨pre, post, s', hsplit, hpre⟩
    cases pre with
    | nil => exact .inl (List.cons.inj hsplit).1
    | cons d' pre =>
      obtain ⟨rfl, rfl⟩ := List.cons.inj hsplit
      rw [session_listEntries_cons] at hpre
      cases hok : (s.listEntries path [d]).1 with
      | true =>
        rw [hok] at hpre
        exact .inr ⟨rfl, pre, post, s', rfl, hpre⟩
      | false =>
        rw [hok] at hpre
        change s.listEntries path [d] = _ at hpre
        rw [hpre] at hok
        cases hok
  · rintro (rfl | ⟨hok, pre, post, s', rfl, hpre⟩)
    · exact ⟨[], des, s, rfl, rfl⟩
    · refine ⟨d :: pre, post, s', rfl, ?_⟩
      rw [session_listEntries_cons, hok]
      exact hpre

/-- As long as the loop comes to no entry whose name is too long for the path, it does what it
does without the checks. -/
lemma listEntries_eq (hpath : path.length ≤ 1024)
    (h : ∀ de, ComesTo path de des s → ¬Overlong path de) :
    listEntries path des s = .ok (s.listEntries path des) := by
  induction des generalizing s with
  | nil => rfl
  | cons d des ih =>
    rw [listEntries_cons hpath (h d (comesTo_cons.mpr (.inl rfl))),
      session_listEntries_cons path d des]
    cases hok : (s.listEntries path [d]).1 with
    | true => exact ih fun de hde => h de (comesTo_cons.mpr (.inr ⟨hok, hde⟩))
    | false => rfl

lemma listEntries_overrun (h : ComesTo path de des s) (hlong : Overlong path de) :
    listEntries path des s = .error (.tmp, ⟨1281⟩) := by
  induction des generalizing s with
  | nil =>
    obtain ⟨pre, post, s', hsplit, -⟩ := h
    simp at hsplit
  | cons d des ih =>
    by_cases hd : Overlong path d
    · exact listEntries_overlong hd des s
    rcases comesTo_cons.mp h with rfl | ⟨hok, hrest⟩
    · exact absurd hlong hd
    · rw [listEntries_cons hlong.1.le hd, hok]
      exact ih hrest

/-- What `do_list` stores in front of its loop is inside. -/
lemma doList_start (hpath : path.length ≤ 1024) :
    SyncArray.tmp.touch 0 path.length = .ok () ∧ SyncArray.tmp.touch path.length 1 = .ok () :=
  ⟨touch_eq (show 0 + path.length ≤ 1281 by omega), touch_eq (show path.length + 1 ≤ 1281 by omega)⟩

lemma doList_eq (hpath : path.length ≤ 1024)
    (h : ∀ des s₁ de, s.opendir path = (some des, s₁) → ComesTo path de des s₁ →
      ¬Overlong path de) :
    doList path s = .ok (s.doList path) := by
  obtain ⟨hcopy, hslash⟩ := doList_start hpath
  rw [doList, hcopy, hslash, Session.doList]
  dsimp only [bind, Except.bind]
  cases hopen : s.opendir path with
  | mk des s₁ =>
    cases des with
    | none => rfl
    | some des =>
      dsimp only
      rw [listEntries_eq hpath fun de => h des s₁ de hopen]
      cases s₁.listEntries path des with
      | mk ok s₂ => cases ok <;> rfl

lemma doList_overrun {s₁ : Session} (hopen : s.opendir path = (some des, s₁))
    (h : ComesTo path de des s₁) (hlong : Overlong path de) :
    doList path s = .error (.tmp, ⟨1281⟩) := by
  obtain ⟨hcopy, hslash⟩ := doList_start hlong.1.le
  rw [doList, hcopy, hslash]
  dsimp only [bind, Except.bind]
  rw [hopen]
  dsimp only
  rw [listEntries_overrun h hlong]

end List

/-! ## One round -/

/-- The next request of `s` is a `LIST` of `path`, and `s'` is what `do_list` finds. -/
def Lists (s : Session) (path : Path) (s' : Session) : Prop :=
  ∃ hdr s₁ name, s.read 8 = (some hdr, s₁) ∧ wordAt hdr 0 = idList ∧
    (wordAt hdr 1).toNat ≤ 1024 ∧ s₁.read (wordAt hdr 1).toNat = (some name, s') ∧
      name.takeWhile (· ≠ 0) = path

/-- The next request of `s` lists a directory with a path and an entry of the greatest lengths
there can be. -/
def MeetsOverlong (s : Session) : Prop :=
  ∃ path s' des s₁ de, Lists s path s' ∧ s'.opendir path = (some des, s₁) ∧
    ComesTo path de des s₁ ∧ Overlong path de

section Round

variable {s s' : Session} {name path : Path} {id : UInt32}

/-- A path is no longer than the name of the request it is cut from. -/
lemma length_path {n : ℕ} (hread : s.read n = (some name, s')) (hn : n ≤ 1024) :
    (name.takeWhile (· ≠ 0)).length ≤ 1024 := by
  have hsome : readFull n s.input = (some name, s'.input) := by
    simp only [Session.read, Prod.mk.injEq] at hread
    obtain ⟨hname, rfl⟩ := hread
    rw [← hname]
    rfl
  have hlen := (readFull_some hsome).1
  have hcut := (List.takeWhile_prefix (l := name) (· ≠ 0)).length_le
  omega

lemma serve_eq (hpath : path.length ≤ 1024)
    (h : id = idList → ∀ des s₁ de, s.opendir path = (some des, s₁) → ComesTo path de des s₁ →
      ¬Overlong path de) :
    serve id path s = .ok (s.serve id path) := by
  rw [serve, Session.serve]
  split
  · rfl
  split
  case isTrue hlist => exact doList_eq hpath (h hlist)
  split
  · exact doSend_eq hpath s
  split
  · exact doRecv_eq path s
  split <;> rfl

/-- A round stores inside the arrays unless it meets a name that is too long. -/
lemma command_eq (h : ¬MeetsOverlong s) : command s = .ok s.command := by
  rw [command, Session.command]
  cases hread : s.read 8 with
  | mk hdr s₁ =>
    cases hdr with
    | none => rfl
    | some hdr =>
      dsimp only
      split
      · rfl
      case isFalse hlen =>
        have hlen : (wordAt hdr 1).toNat ≤ 1024 := Nat.le_of_not_lt hlen
        have hnul : SyncArray.name.touch (wordAt hdr 1).toNat 1 = .ok () :=
          touch_eq (Nat.succ_le_succ hlen)
        rw [receive_eq (a := .name) (show _ ≤ 1025 by omega), hnul]
        dsimp only [bind, Except.bind]
        cases hname : s₁.read (wordAt hdr 1).toNat with
        | mk name s₂ =>
          cases name with
          | none => rfl
          | some name =>
            apply serve_eq (length_path hname hlen)
            intro hlist des s₃ de hopen hde hlong
            exact h ⟨_, s₂, des, s₃, de, ⟨hdr, s₁, name, hread, hlist, hlen, hname, rfl⟩, hopen,
              hde, hlong⟩

lemma command_overrun (h : MeetsOverlong s) : command s = .error (.tmp, ⟨1281⟩) := by
  obtain ⟨path, s', des, s₁, de, ⟨hdr, s₀, name, hread, hlist, hlen, hname, rfl⟩, hopen, hde,
    hlong⟩ := h
  have hnul : SyncArray.name.touch (wordAt hdr 1).toNat 1 = .ok () :=
    touch_eq (Nat.succ_le_succ hlen)
  rw [command, hread]
  dsimp only
  rw [if_neg (Nat.not_lt.mpr hlen), receive_eq (a := .name) (show _ ≤ 1025 by omega), hnul, hname,
    hlist]
  exact doList_overrun hopen hde hlong

end Round

/-! ## The session -/

section Run

variable {s s' : Session}

/-- As long as no round meets a name that is too long, the service with checked stores does what
it does without the checks. -/
lemma serviceLoop_eq (h : ∀ s', Relation.ReflTransGen Round s s' → ¬MeetsOverlong s') (n : ℕ) :
    serviceLoop n s = .ok (s.serviceLoop n) := by
  induction n generalizing s with
  | zero => rfl
  | succ n ih =>
    rw [serviceLoop, command_eq (h s .refl), Session.serviceLoop]
    dsimp only [bind, Except.bind]
    cases hc : s.command with
    | mk goes s₁ =>
      cases goes with
      | true => exact ih fun s' hs' => h s' (.head hc hs')
      | false => rfl

/-- A round that does is reached, and there the checks end the service. -/
lemma serviceLoop_overrun (h : Relation.ReflTransGen Round s s') (hlong : MeetsOverlong s') :
    ∃ n, serviceLoop n s = .error (.tmp, ⟨1281⟩) := by
  induction h using Relation.ReflTransGen.head_induction_on with
  | refl =>
    refine ⟨1, ?_⟩
    rw [serviceLoop, command_overrun hlong]
    rfl
  | @head s s₁ hround _ ih =>
    by_cases hs : MeetsOverlong s
    · refine ⟨1, ?_⟩
      rw [serviceLoop, command_overrun hs]
      rfl
    · obtain ⟨n, hn⟩ := ih
      refine ⟨n + 1, ?_⟩
      rw [serviceLoop, command_eq hs, hround]
      exact hn

end Run

/-- However many rounds the service makes from `s` on, all its stores are inside the arrays. -/
def StoresInside (s : Session) : Prop := ∀ n, ∃ s', serviceLoop n s = .ok s'

/-- **The arrays of the sync service.**  For any requests, any paths and any directories, all
stores are inside the arrays exactly if no round lists a path of 1024 bytes and comes to an entry
whose name has 256. -/
theorem storesInside_iff (s : Session) :
    StoresInside s ↔ ∀ s', Relation.ReflTransGen Round s s' → ¬MeetsOverlong s' := by
  constructor
  · intro h s' hs' hlong
    obtain ⟨n, hn⟩ := serviceLoop_overrun hs' hlong
    obtain ⟨s'', hok⟩ := h n
    rw [hn] at hok
    cases hok
  · intro h n
    exact ⟨_, serviceLoop_eq h n⟩

/-- A host lists a path of four times a `/` and 255 bytes, which is a directory with one entry,
whose name has 256 bytes. -/
def longListing : Session where
  sys := { opendirs := [some [⟨List.replicate 256 0x62⟩]] }
  input := [.data (Session.requestBytes idList
    (List.replicate 4 (0x2f :: List.replicate 255 0x61)).flatten)]
  buffer := List.replicate syncDataMax 0

/-- The NUL of the name is stored behind the end of `tmp`. -/
theorem longListing_overrun : ¬StoresInside longListing := by
  intro h
  obtain ⟨s', hs'⟩ := h 1
  have hfault : (serviceLoop 1 longListing).toBool = false := by decide +kernel
  rw [hs'] at hfault
  cases hfault

end Adbd.SyncBuffers
