import Adbd.Framework.Memory
import Adbd.Model.FileSync

/-!
# The arrays of the sync service (`file_sync_service.c`)

The service works in three arrays: a path is received into `name`, which every function that is
given the path points into, `do_list` puts paths of entries together in `tmp`, and the contents
of files go through the transfer buffer.

Here is the service with all stores into these arrays checked.  The session says already what is
stored, so a store is the array and the cells it touches; `Session` has the functions without
the checks.
-/

namespace Adbd

open Bytes Syscall Memory

inductive SyncArray
  | name
  | tmp
  | buffer
  deriving DecidableEq, Repr

/-- A computation with checked stores. -/
abbrev Checked : Type → Type := Except (SyncArray × Overrun)

namespace SyncArray

/-- The declared sizes, and the one that is allocated for the transfer buffer. -/
def size : SyncArray → ℕ
  | .name => 1025
  | .tmp => 1024 + 256 + 1
  | .buffer => syncDataMax

/-- Stores to `count` cells of the array from index `i` on. -/
def touch (a : SyncArray) (i count : ℕ) : Checked Unit :=
  (Memory.touch a.size i count).mapError (a, ·)

end SyncArray

namespace SyncBuffers

/-- The stores of `readx(s,a,n)`: what has been received is there also when it fails. -/
def receive (a : SyncArray) (n : ℕ) (s : Session) : Checked Unit :=
  a.touch 0 (received n s.input)

/-! ## `mkdirs` and `do_list` -/

/-- The loop of `mkdirs`, which cuts the path at a `/` and puts that back after the call. -/
def mkdirEach : List Path → Session → Checked (Bool × Session)
  | [], s => .ok (true, s)
  | d :: ds, s => do
    SyncArray.name.touch d.length 1
    match s.mkdir d with
    | (some e, s) =>
      SyncArray.name.touch d.length 1
      if e ≠ .eexist then pure (false, s) else mkdirEach ds s
    | (none, s) =>
      SyncArray.name.touch d.length 1
      mkdirEach ds s

def mkdirs (name : Path) (s : Session) : Checked (Bool × Session) :=
  if name.head? ≠ some 0x2f then .ok (false, s) else mkdirEach (Session.dirStarts name) s

/-- The `readdir` loop of `do_list`: `strcpy` of a name and its NUL behind the path and a `/`. -/
def listEntries (path : Path) : List Dirent → Session → Checked (Bool × Session)
  | [], s => .ok (true, s)
  | de :: des, s =>
    if 256 < de.name.length then listEntries path des s
    else do
      SyncArray.tmp.touch (path.length + 1) (de.name.length + 1)
      match s.lstat (path ++ [0x2f] ++ de.name) with
      | (none, s) => listEntries path des s
      | (some st, s) =>
        match s.write (syncmsg (Session.statWords idDent st ++ [UInt32.ofNat de.name.length])) with
        | (false, s) => pure (false, s)
        | (true, s) =>
          match s.write de.name with
          | (false, s) => pure (false, s)
          | (true, s) => listEntries path des s

def doList (path : Path) (s : Session) : Checked (Bool × Session) := do
  SyncArray.tmp.touch 0 path.length
  SyncArray.tmp.touch path.length 1
  match s.opendir path with
  | (none, s) => pure (s.write (syncmsg [idDone, 0, 0, 0, 0]))
  | (some des, s) =>
    match ← listEntries path des s with
    | (false, s) => pure (false, s)
    | (true, s) => pure (s.write (syncmsg [idDone, 0, 0, 0, 0]))

/-! ## `do_send` -/

/-- The loop of `handle_send_file`, which receives every block into the buffer. -/
def sendFileLoop (path : Path) : ℕ → Option ℕ → Session → Checked (Session.SendExit × Session)
  | 0, fd, s => .ok (.fail fd, s)
  | n + 1, fd, s =>
    match s.read 8 with
    | (none, s) => .ok (.fail fd, s)
    | (some hdr, s) =>
      if wordAt hdr 0 ≠ idData then
        if wordAt hdr 0 = idDone then .ok (.done fd, s)
        else .ok (.fail fd, (s.failMessage (str "invalid data message")).2)
      else
        let len := (wordAt hdr 1).toNat
        if syncDataMax < len then .ok (.fail fd, (s.failMessage (str "oversize data message")).2)
        else do
          receive .buffer len s
          match s.readBuffer len with
          | (none, s) => pure (.fail fd, s)
          | (some bs, s) =>
            match fd with
            | none => sendFileLoop path n none s
            | some off =>
              match s.writeFile path off bs with
              | (none, s) => sendFileLoop path n (some (off + bs.length)) s
              | (some e, s) =>
                match (s.unlink path).failErrno e with
                | (false, s) => pure (.ret, s)
                | (true, s) => sendFileLoop path n none s

/-- The second attempt of `handle_send_file` to open the target, after `ENOENT`. -/
def createAgain (path : Path) : Except Errno Unit × Session → Checked (Except Errno Unit × Session)
  | (.error .enoent, s) => do
    let (_, s) ← mkdirs path s
    pure (s.openCreate path)
  | r => .ok r

/-- The three attempts of `handle_send_file` to open the target. -/
def openTarget (path : Path) (s : Session) : Checked (Except Errno Unit × Session) := do
  let r ← createAgain path (s.openCreate path)
  pure (Session.openAgain path r)

/-- `handle_send_file` from its loop on. -/
def sendFileRest (path : Path) (fd : Option ℕ) (s : Session) : Checked (Bool × Session) := do
  let r ← sendFileLoop path s.rounds fd s
  pure (Session.sendFileEnd path r)

def handleSendFile (path : Path) (s : Session) : Checked (Bool × Session) := do
  match ← openTarget path s with
  | (.error e, s) =>
    match s.failErrno e with
    | (false, s) => pure (false, s)
    | (true, s) => sendFileRest path none s
  | (.ok (), s) => sendFileRest path (some 0) s

/-- The calls of `symlink` in `handle_send_link`. -/
def makeLink (path : Path) (s : Session) : Checked (Option Errno × Session) :=
  match s.symlink path with
  | (some .enoent, s) => do
    let (_, s) ← mkdirs path s
    pure (s.symlink path)
  | r => .ok r

def handleSendLink (path : Path) (s : Session) : Checked (Bool × Session) :=
  match s.read 8 with
  | (none, s) => .ok (false, s)
  | (some hdr, s) =>
    if wordAt hdr 0 ≠ idData then
      .ok (false, (s.failMessage (str "invalid data message: expected ID_DATA")).2)
    else if syncDataMax < (wordAt hdr 1).toNat then
      .ok (false, (s.failMessage (str "oversize data message")).2)
    else do
      receive .buffer (wordAt hdr 1).toNat s
      match s.readBuffer (wordAt hdr 1).toNat with
      | (none, s) => pure (false, s)
      | (some _, s) =>
        match ← makeLink path s with
        | (some e, s) => pure (false, (s.failErrno e).2)
        | (none, s) =>
          match s.read 8 with
          | (none, s) => pure (false, s)
          | (some hdr, s) =>
            if wordAt hdr 0 = idDone then pure (s.write (syncmsg [idOkay, 0]))
            else pure (false, (s.failMessage (str "invalid data message: expected ID_DONE")).2)

/-- The store of `do_send` that cuts the path at its last comma. -/
def cutPath (path : Path) : Checked Unit :=
  match strrchr 0x2c path with
  | none => .ok ()
  | some (target, _) => SyncArray.name.touch target.length 1

def doSend (path : Path) (s : Session) : Checked (Bool × Session) := do
  cutPath path
  let (target, isLink) := sendTarget path
  let s := s.unlink target
  if isLink then handleSendLink target s else handleSendFile target s

/-! ## `do_recv` -/

/-- The loop of `do_recv`, which reads every piece of the file into the buffer. -/
def recvLoop : List FileRead → Session → Checked (Option Bool × Session)
  | [], s => .ok (none, s)
  | .intr :: rs, s => recvLoop rs s
  | .fail e :: _, s =>
    let (ok, s) := s.failErrno e
    .ok (some ok, s)
  | .data bs _ :: rs, s => do
    SyncArray.buffer.touch 0 bs.length
    if bs = [] then pure (none, s)
    else
      match { s with buffer := bs ++ s.buffer.drop bs.length }.write
          (syncmsg [idData, UInt32.ofNat bs.length]) with
      | (false, s) => pure (some false, s)
      | (true, s) =>
        match s.write bs with
        | (false, s) => pure (some false, s)
        | (true, s) => recvLoop rs s

def doRecv (path : Path) (s : Session) : Checked (Bool × Session) :=
  match s.openSource path with
  | (.error e, s) => .ok (s.failErrno e)
  | (.ok rs, s) => do
    match ← recvLoop rs s with
    | (some ok, s) => pure (ok, s)
    | (none, s) => pure (s.write (syncmsg [idDone, 0]))

/-! ## `file_sync_service` -/

/-- The `switch` on the command. -/
def serve (id : UInt32) (name : Path) (s : Session) : Checked (Bool × Session) :=
  if id = idStat then .ok (s.doStat name)
  else if id = idList then doList name s
  else if id = idSend then doSend name s
  else if id = idRecv then doRecv name s
  else if id = idQuit then .ok (false, s)
  else .ok (false, (s.failMessage (str "unknown command")).2)

/-- One round of the service: a path is received into `name` and a NUL put behind it. -/
def command (s : Session) : Checked (Bool × Session) :=
  match s.read 8 with
  | (none, s) => .ok (false, (s.failMessage (str "command read failure")).2)
  | (some hdr, s) =>
    let namelen := (wordAt hdr 1).toNat
    if 1024 < namelen then .ok (false, (s.failMessage (str "invalid namelen")).2)
    else do
      receive .name namelen s
      match s.read namelen with
      | (none, s) => pure (false, (s.failMessage (str "filename read failure")).2)
      | (some name, s) =>
        SyncArray.name.touch namelen 1
        serve (wordAt hdr 0) (name.takeWhile (· ≠ 0)) s

/-- So many rounds of the service, or fewer if it ends before. -/
def serviceLoop : ℕ → Session → Checked Session
  | 0, s => .ok s
  | n + 1, s => do
    match ← command s with
    | (true, s) => serviceLoop n s
    | (false, s) => pure s

end SyncBuffers

end Adbd
