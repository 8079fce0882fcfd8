import Adbd.Model.Services
import Adbd.Model.Wire

/-!
# The sync service (`file_sync_service.c`)

A sync session is one thread that reads requests from a descriptor and answers on it.  It shares
no memory with the main loop, so its state is a record of its own: what is still to be read, how
the writes of the replies will go, what has been written, the transfer buffer and the file
system.

The file system keeps what the regular file at a path holds, and for each kind of call a script
of outcomes, used up call by call; a call whose script is exhausted is let through.  A call that
is let through still fails where the state of the path makes it fail: `O_CREAT|O_EXCL` on a
path that exists, `O_WRONLY` on one that does not, `unlink` of nothing.  `utime`, whose result
nobody looks at, and the permission bits of a created file are left out.
-/

namespace Adbd

open Bytes Syscall

/-! ## Messages -/

def idStat : UInt32 := 0x54415453
def idList : UInt32 := 0x5453494c
def idSend : UInt32 := 0x444e4553
def idRecv : UInt32 := 0x56434552
def idDent : UInt32 := 0x544e4544
def idDone : UInt32 := 0x454e4f44
def idData : UInt32 := 0x41544144
def idOkay : UInt32 := 0x59414b4f
def idFail : UInt32 := 0x4c494146
def idQuit : UInt32 := 0x54495551

def syncDataMax : ℕ := 64 * 1024

/-- The bytes of a member of `syncmsg`, whose fields are all words. -/
def syncmsg (ws : List UInt32) : List UInt8 := ws.flatMap fun w => leBytes 4 w.toNat

/-! ## The file system -/

abbrev Path := List UInt8

/-- The values of `errno` the service tests for, and the others by number. -/
inductive Errno
  | enoent
  | eexist
  | other (n : ℕ)
  deriving DecidableEq, Repr

/-- The fields of `struct stat` the service reports. -/
structure Stat where
  mode : UInt32
  size : ℕ
  mtime : ℕ
  deriving DecidableEq, Repr

/-- `struct dirent`: the bytes of `d_name` up to its NUL, of which there may be more than the
array is declared with. -/
structure Dirent where
  name : List UInt8
  deriving DecidableEq, Repr

/-- One `read` of at most `SYNC_DATA_MAX` bytes from a file; `data []` is its end. -/
inductive FileRead
  | data (bs : List UInt8) (h : bs.length ≤ syncDataMax)
  | intr
  | fail (e : Errno)
  deriving DecidableEq, Repr

/-- A text of `strerror`. -/
structure ErrorText where
  text : List UInt8
  short : text.length < 2 ^ 32
  deriving DecidableEq, Repr

instance : Inhabited ErrorText := ⟨⟨[], by decide⟩⟩

/-- What the service sees of the file system. -/
structure FileSys where
  /-- What the regular file at a path holds. -/
  files : Path → Option (List UInt8) := fun _ => none
  /-- Errors of `open` for writing. -/
  opens : List (Option Errno) := []
  unlinks : List (Option Errno) := []
  mkdirs : List (Option Errno) := []
  symlinks : List (Option Errno) := []
  lstats : List (Option Stat) := []
  opendirs : List (Option (List Dirent)) := []
  /-- Outcomes of `open` for reading: an error, or what the reads will return. -/
  sources : List (Except Errno (List FileRead)) := []
  /-- Outcomes of `write` on files. -/
  writes : List WriteResult := []
  /-- `errno` of the writes that fail. -/
  writeErrnos : List Errno := []
  strerror : Errno → ErrorText := fun _ => default

/-- A call of `symlink`: the C string at the front of the buffer it was given, and the path. -/
structure SymlinkCall where
  target : List UInt8
  path : Path
  deriving DecidableEq, Repr

/-- A sync session. -/
structure Session where
  sys : FileSys := {}
  /-- Results of the reads from the host. -/
  input : List ReadResult := []
  /-- Results of the writes to the host; when they are used up everything is accepted. -/
  replies : List WriteResult := []
  /-- Everything written to the host. -/
  output : List UInt8 := []
  /-- The transfer buffer of `SYNC_DATA_MAX` bytes. -/
  buffer : List UInt8
  /-- The calls of `symlink` so far. -/
  links : List SymlinkCall := []

namespace Session

/-! ## Calls -/

/-- `readx(s,ptr,n)`. -/
def read (n : ℕ) (s : Session) : Option (List UInt8) × Session :=
  let (r, input) := readx n s.input
  (r, { s with input := input })

/-- `readx(s,buffer,n)`.  After a failure nothing reads the buffer any more. -/
def readBuffer (n : ℕ) (s : Session) : Option (List UInt8) × Session :=
  match s.read n with
  | (none, s) => (none, s)
  | (some bs, s) => (some bs, { s with buffer := bs ++ s.buffer.drop bs.length })

/-- `writex(s,ptr,len)`: whether it returned 0. -/
def write (bs : List UInt8) (s : Session) : Bool × Session :=
  let (out, ok, rest) := writex bs (s.replies ++ [.wrote bs.length])
  (ok, { s with output := s.output ++ out, replies := rest.dropLast })

/-- What the regular file at `path` holds from now on. -/
def setFile (path : Path) (c : Option (List UInt8)) (s : Session) : Session :=
  { s with sys := { s.sys with files := fun p => if p = path then c else s.sys.files p } }

/-- The next outcome of an `open` for writing. -/
def nextOpen (s : Session) : Option Errno × Session :=
  (s.sys.opens.head?.join, { s with sys := { s.sys with opens := s.sys.opens.tail } })

/-- `adb_open_mode(path,O_WRONLY|O_CREAT|O_EXCL,mode)`. -/
def openCreate (path : Path) (s : Session) : Except Errno Unit × Session :=
  match s.nextOpen with
  | (some e, s) => (.error e, s)
  | (none, s) =>
    if (s.sys.files path).isSome then (.error .eexist, s)
    else (.ok (), s.setFile path (some []))

/-- `adb_open_mode(path,O_WRONLY,mode)`: an existing file, at offset 0, as it is. -/
def openExisting (path : Path) (s : Session) : Except Errno Unit × Session :=
  match s.nextOpen with
  | (some e, s) => (.error e, s)
  | (none, s) => if (s.sys.files path).isSome then (.ok (), s) else (.error .enoent, s)

/-- `adb_unlink(path)`, whose result the service never looks at. -/
def unlink (path : Path) (s : Session) : Session :=
  let s' := { s with sys := { s.sys with unlinks := s.sys.unlinks.tail } }
  match s.sys.unlinks.head?.join with
  | some _ => s'
  | none => s'.setFile path none

/-- `adb_mkdir`. -/
def mkdir (_path : Path) (s : Session) : Option Errno × Session :=
  (s.sys.mkdirs.head?.join, { s with sys := { s.sys with mkdirs := s.sys.mkdirs.tail } })

/-- `lstat`. -/
def lstat (_path : Path) (s : Session) : Option Stat × Session :=
  (s.sys.lstats.head?.join, { s with sys := { s.sys with lstats := s.sys.lstats.tail } })

/-- `opendir`, with everything `readdir` will return. -/
def opendir (_path : Path) (s : Session) : Option (List Dirent) × Session :=
  (s.sys.opendirs.head?.join, { s with sys := { s.sys with opendirs := s.sys.opendirs.tail } })

/-- `adb_open(path,O_RDONLY)`, with everything the reads will return. -/
def openSource (_path : Path) (s : Session) : Except Errno (List FileRead) × Session :=
  (s.sys.sources.head?.getD (.error .enoent),
    { s with sys := { s.sys with sources := s.sys.sources.tail } })

/-- `symlink(buffer,path)`. -/
def symlink (path : Path) (s : Session) : Option Errno × Session :=
  let e := s.sys.symlinks.head?.join
  (if e.isNone && (s.sys.files path).isSome then some .eexist else e,
    { s with
      sys := { s.sys with symlinks := s.sys.symlinks.tail }
      links := s.links ++ [⟨s.buffer.takeWhile (· ≠ 0), path⟩] })

/-- `writex(fd,buffer,len)` on the file at `path`, at offset `off`; `errno` if it fails. -/
def writeFile (path : Path) (off : ℕ) (bs : List UInt8) (s : Session) : Option Errno × Session :=
  let (out, ok, rest) := writex bs (s.sys.writes ++ [.wrote bs.length])
  let old := (s.sys.files path).getD []
  let s := s.setFile path (some (old.take off ++ out ++ old.drop (off + out.length)))
  let s := { s with sys := { s.sys with writes := rest.dropLast } }
  if ok then (none, s)
  else (some (s.sys.writeErrnos.head?.getD (.other 0)),
    { s with sys := { s.sys with writeErrnos := s.sys.writeErrnos.tail } })

/-! ## `mkdirs`, `do_stat`, `do_list` -/

/-- The prefixes of `path` that end before a `/`, the first character apart. -/
def dirStarts (path : Path) : List Path :=
  ((List.range path.length).filter fun i => 0 < i ∧ path[i]? = some 0x2f).map (path.take ·)

/-- The loop of `mkdirs`: a directory that exists already is no failure. -/
def mkdirEach : List Path → Session → Bool × Session
  | [], s => (true, s)
  | d :: ds, s =>
    match s.mkdir d with
    | (some e, s) => if e ≠ .eexist then (false, s) else mkdirEach ds s
    | (none, s) => mkdirEach ds s

def mkdirs (name : Path) (s : Session) : Bool × Session :=
  if name.head? ≠ some 0x2f then (false, s) else mkdirEach (dirStarts name) s

/-- The words of a `stat` member that reports `st`. -/
def statWords (id : UInt32) (st : Stat) : List UInt32 :=
  [id, st.mode, UInt32.ofNat st.size, UInt32.ofNat st.mtime]

def doStat (path : Path) (s : Session) : Bool × Session :=
  match s.lstat path with
  | (none, s) => s.write (syncmsg [idStat, 0, 0, 0])
  | (some st, s) => s.write (syncmsg (statWords idStat st))

/-- The `readdir` loop of `do_list`. -/
def listEntries (path : Path) : List Dirent → Session → Bool × Session
  | [], s => (true, s)
  | de :: des, s =>
    if 256 < de.name.length then listEntries path des s
    else
      match s.lstat (path ++ [0x2f] ++ de.name) with
      | (none, s) => listEntries path des s
      | (some st, s) =>
        match s.write (syncmsg (statWords idDent st ++ [UInt32.ofNat de.name.length])) with
        | (false, s) => (false, s)
        | (true, s) =>
          match s.write de.name with
          | (false, s) => (false, s)
          | (true, s) => listEntries path des s

def doList (path : Path) (s : Session) : Bool × Session :=
  match s.opendir path with
  | (none, s) => s.write (syncmsg [idDone, 0, 0, 0, 0])
  | (some des, s) =>
    match listEntries path des s with
    | (false, s) => (false, s)
    | (true, s) => s.write (syncmsg [idDone, 0, 0, 0, 0])

/-! ## `fail_message` -/

def failMessage (reason : List UInt8) (s : Session) : Bool × Session :=
  match s.write (syncmsg [idFail, UInt32.ofNat reason.length]) with
  | (false, s) => (false, s)
  | (true, s) => s.write reason

def failErrno (e : Errno) (s : Session) : Bool × Session := s.failMessage (s.sys.strerror e).text

/-! ## `do_send` -/

/-- How the loop of `handle_send_file` is left; `fd` is the offset of the file if it is open. -/
inductive SendExit
  /-- `break`: the host sent `DONE`. -/
  | done (fd : Option ℕ)
  /-- `goto fail`. -/
  | fail (fd : Option ℕ)
  /-- `return -1`. -/
  | ret
  deriving DecidableEq, Repr

/-- The loop of `handle_send_file`.  Each round takes eight bytes off the input, which bounds
the number of rounds. -/
def sendFileLoop (path : Path) : ℕ → Option ℕ → Session → SendExit × Session
  | 0, fd, s => (.fail fd, s)
  | n + 1, fd, s =>
    match s.read 8 with
    | (none, s) => (.fail fd, s)
    | (some hdr, s) =>
      if wordAt hdr 0 ≠ idData then
        if wordAt hdr 0 = idDone then (.done fd, s)
        else (.fail fd, (s.failMessage (str "invalid data message")).2)
      else
        let len := (wordAt hdr 1).toNat
        if syncDataMax < len then (.fail fd, (s.failMessage (str "oversize data message")).2)
        else
          match s.readBuffer len with
          | (none, s) => (.fail fd, s)
          | (some bs, s) =>
            match fd with
            | none => sendFileLoop path n none s
            | some off =>
              match s.writeFile path off bs with
              | (none, s) => sendFileLoop path n (some (off + bs.length)) s
              | (some e, s) =>
                match (s.unlink path).failErrno e with
                | (false, s) => (.ret, s)
                | (true, s) => sendFileLoop path n none s

/-- The second attempt of `handle_send_file` to open the target, after `ENOENT`. -/
def createAgain (path : Path) : Except Errno Unit × Session → Except Errno Unit × Session
  | (.error .enoent, s) => (s.mkdirs path).2.openCreate path
  | r => r

/-- The third attempt, after `EEXIST`. -/
def openAgain (path : Path) : Except Errno Unit × Session → Except Errno Unit × Session
  | (.error .eexist, s) => s.openExisting path
  | r => r

/-- The three attempts of `handle_send_file` to open the target. -/
def openTarget (path : Path) (s : Session) : Except Errno Unit × Session :=
  openAgain path (createAgain path (s.openCreate path))

/-- What `handle_send_file` does after its loop. -/
def sendFileEnd (path : Path) : SendExit × Session → Bool × Session
  | (.done (some _), s) => s.write (syncmsg [idOkay, 0])
  | (.done none, s) => (true, s)
  | (.fail _, s) => (false, s.unlink path)
  | (.ret, s) => (false, s)

/-- The bound on the rounds of a loop that takes eight bytes off the input in each. -/
def rounds (s : Session) : ℕ := (bytesOf s.input).length + 1

def handleSendFile (path : Path) (s : Session) : Bool × Session :=
  match s.openTarget path with
  | (.error e, s) =>
    match s.failErrno e with
    | (false, s) => (false, s)
    | (true, s) => sendFileEnd path (sendFileLoop path s.rounds none s)
  | (.ok (), s) => sendFileEnd path (sendFileLoop path s.rounds (some 0) s)

/-- The calls of `symlink` in `handle_send_link`; `errno` if the last one failed. -/
def makeLink (path : Path) (s : Session) : Option Errno × Session :=
  match s.symlink path with
  | (some .enoent, s) => (s.mkdirs path).2.symlink path
  | r => r

def handleSendLink (path : Path) (s : Session) : Bool × Session :=
  match s.read 8 with
  | (none, s) => (false, s)
  | (some hdr, s) =>
    if wordAt hdr 0 ≠ idData then
      (false, (s.failMessage (str "invalid data message: expected ID_DATA")).2)
    else if syncDataMax < (wordAt hdr 1).toNat then
      (false, (s.failMessage (str "oversize data message")).2)
    else
      match s.readBuffer (wordAt hdr 1).toNat with
      | (none, s) => (false, s)
      | (some _, s) =>
        match s.makeLink path with
        | (some e, s) => (false, (s.failErrno e).2)
        | (none, s) =>
          match s.read 8 with
          | (none, s) => (false, s)
          | (some hdr, s) =>
            if wordAt hdr 0 = idDone then s.write (syncmsg [idOkay, 0])
            else (false, (s.failMessage (str "invalid data message: expected ID_DONE")).2)

end Session

/-! ## The mode in a `SEND` request -/

/-- `strrchr`: what is in front of the last `c` and what is behind it. -/
def strrchr (c : UInt8) (bs : List UInt8) : Option (List UInt8 × List UInt8) :=
  match bs.reverse.dropWhile (· ≠ c) with
  | [] => none
  | _ :: before => some (before.reverse, (bs.reverse.takeWhile (· ≠ c)).reverse)

/-- The value of a digit in bases up to 16. -/
def digitValue (c : UInt8) : Option ℕ :=
  if 0x30 ≤ c ∧ c ≤ 0x39 then some (c.toNat - 0x30)
  else if 0x61 ≤ c ∧ c ≤ 0x66 then some (c.toNat - 0x61 + 10)
  else if 0x41 ≤ c ∧ c ≤ 0x46 then some (c.toNat - 0x41 + 10)
  else none

/-- The number the leading digits of `bs` spell. -/
def digitsValue (base : ℕ) : List UInt8 → ℕ → ℕ
  | [], n => n
  | c :: bs, n =>
    match digitValue c with
    | some d => if d < base then digitsValue base bs (base * n + d) else n
    | none => n

/-- A number with the prefix that tells its base. -/
def prefixedValue : List UInt8 → ℕ
  | 0x30 :: x :: ds =>
    if x = 0x78 ∨ x = 0x58 then digitsValue 16 ds 0 else digitsValue 8 (x :: ds) 0
  | ds => digitsValue 10 ds 0

/-- `strtoul(s,NULL,0)`; `none` when it sets `errno`, to `ERANGE`. -/
def strtoul (bs : List UInt8) : Option ℕ :=
  let (negative, ds) := match bs.dropWhile Daemon.isSpace with
    | 0x2d :: ds => (true, ds)
    | 0x2b :: ds => (false, ds)
    | ds => (false, ds)
  let n := prefixedValue ds
  if 2 ^ 64 ≤ n then none else some (if negative then (2 ^ 64 - n) % 2 ^ 64 else n)

/-- `S_ISLNK` of a number converted to `mode_t`. -/
def sIslnk (mode : ℕ) : Bool := mode % 2 ^ 32 &&& 0o170000 = 0o120000

/-- The target of a `SEND` request and whether it is to become a symbolic link: the name up to
its last comma, the mode behind it. -/
def sendTarget (path : Path) : Path × Bool :=
  match strrchr 0x2c path with
  | none => (path, false)
  | some (target, digits) =>
    match strtoul digits with
    | none => (target, false)
    | some mode => (target, sIslnk mode)

namespace Session

def doSend (path : Path) (s : Session) : Bool × Session :=
  let (target, isLink) := sendTarget path
  let s := s.unlink target
  if isLink then s.handleSendLink target else s.handleSendFile target

/-! ## `do_recv` -/

/-- The loop of `do_recv` over what the reads of the file return; the buffer holds what was
read last.  `none` is an end of file. -/
def recvLoop : List FileRead → Session → Option Bool × Session
  | [], s => (none, s)
  | .intr :: rs, s => recvLoop rs s
  | .fail e :: _, s =>
    let (ok, s) := s.failErrno e
    (some ok, s)
  | .data bs _ :: rs, s =>
    if bs = [] then (none, s)
    else
      match { s with buffer := bs ++ s.buffer.drop bs.length }.write
          (syncmsg [idData, UInt32.ofNat bs.length]) with
      | (false, s) => (some false, s)
      | (true, s) =>
        match s.write bs with
        | (false, s) => (some false, s)
        | (true, s) => recvLoop rs s

def doRecv (path : Path) (s : Session) : Bool × Session :=
  match s.openSource path with
  | (.error e, s) => s.failErrno e
  | (.ok rs, s) =>
    match recvLoop rs s with
    | (some ok, s) => (ok, s)
    | (none, s) => s.write (syncmsg [idDone, 0])

/-! ## `file_sync_service` -/

/-- The `switch` on the command: whether the service goes on to the next request. -/
def serve (id : UInt32) (name : Path) (s : Session) : Bool × Session :=
  if id = idStat then s.doStat name
  else if id = idList then s.doList name
  else if id = idSend then s.doSend name
  else if id = idRecv then s.doRecv name
  else if id = idQuit then (false, s)
  else (false, (s.failMessage (str "unknown command")).2)

/-- One round of the service: whether it goes on. -/
def command (s : Session) : Bool × Session :=
  match s.read 8 with
  | (none, s) => (false, (s.failMessage (str "command read failure")).2)
  | (some hdr, s) =>
    let namelen := (wordAt hdr 1).toNat
    if 1024 < namelen then (false, (s.failMessage (str "invalid namelen")).2)
    else
      match s.read namelen with
      | (none, s) => (false, (s.failMessage (str "filename read failure")).2)
      | (some name, s) => s.serve (wordAt hdr 0) (name.takeWhile (· ≠ 0))

/-- The loop of the service, which takes eight bytes off the input in each round. -/
def serviceLoop : ℕ → Session → Session
  | 0, s => s
  | n + 1, s =>
    match s.command with
    | (true, s) => serviceLoop n s
    | (false, s) => s

/-- `file_sync_service`, once its buffer is allocated. -/
def fileSyncService (s : Session) : Session := serviceLoop s.rounds s

end Session

end Adbd
