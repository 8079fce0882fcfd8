import Adbd.Model.Services

/-!
# Packets from a transport (`adb.c`, `adb_auth_client.c`, `adb_auth.h`)

`handle_packet` and what it calls: the connection banner, the authentication exchange with the
framework, and the dispatch of `A_OPEN`, `A_OKAY`, `A_CLSE` and `A_WRTE` to the sockets.
-/

namespace Adbd

open Syscall

namespace Daemon

/-- Assigning to fields of a transport. -/
def modifyT (t : TAddr) (f : Atransport → Atransport) (D : Daemon) : Except Stop Daemon := do
  let x ← D.derefT t
  pure (D.setTransport t (f x))

/-! ## Going online and offline -/

/-- `handle_online`. -/
def handleOnline (t : TAddr) (D : Daemon) : Except Stop Daemon :=
  D.modifyT t fun x => { x with online := true }

/-- `handle_offline`. -/
def handleOffline (t : TAddr) (D : Daemon) : Except Stop Daemon := do
  let D ← D.modifyT t fun x => { x with online := false }
  D.runTransportDisconnects t

/-! ## What the daemon sends of its own -/

/-- `send_ready`; `via` is the remote socket of the stream, if there is one. -/
def sendReady (via : Option Addr) (loc remote : UInt32) (t : TAddr) (D : Daemon) :
    Except Stop Daemon :=
  D.sendMsg via { command := aOkay, arg0 := loc, arg1 := remote } [] (some t)

/-- `send_close`. -/
def sendClose (loc remote : UInt32) (t : TAddr) (D : Daemon) : Except Stop Daemon :=
  D.sendMsg none { command := aClse, arg0 := loc, arg1 := remote } [] (some t)

/-- The text of `fill_connect_data`, with its terminator. -/
def connectData (c : Config) : List UInt8 :=
  let prop := fun (key : String) (i : ℕ) => str key ++ [0x3d] ++ c.values.getD i [] ++ [0x3b]
  c.banner ++ str "::" ++ prop "ro.product.name" 0 ++ prop "ro.product.model" 1 ++
    prop "ro.product.device" 2 ++ [0]

/-- `send_connect`.  A text that does not fit the packet makes `fill_connect_data` return more
than the buffer holds, and the checksum run past it. -/
def sendConnect (t : TAddr) (D : Daemon) : Except Stop Daemon :=
  let text := connectData D.config
  if maxPayload < text.length then .error .overflow
  else
    D.sendMsg none
      { command := aCnxn, arg0 := aVersion, arg1 := UInt32.ofNat maxPayload,
        dataLength := UInt32.ofNat text.length } text (some t)

/-- `send_auth_request`, with `adb_auth_generate_token`. -/
def sendAuthRequest (t : TAddr) (D : Daemon) : Except Stop Daemon :=
  match D.io.token with
  | none => pure D
  | some token =>
    if token.length = tokenSize then do
      let D ← D.modifyT t fun x => { x with token := token }
      D.sendMsg none
        { command := aAuth, arg0 := adbAuthToken, dataLength := UInt32.ofNat tokenSize } token
        (some t)
    else pure D

/-- `send_auth_publickey`: `adb_auth_get_userkey` is a stub that returns 0. -/
def sendAuthPublickey (D : Daemon) : Daemon :=
  let (p, D) := D.getApacket
  D.putApacket p

/-- `adb_auth_verified`. -/
def adbAuthVerified (t : TAddr) (D : Daemon) : Except Stop Daemon := do
  let D ← (D.emit (.verified t)).handleOnline t
  D.sendConnect t

/-- `adb_auth_verify`, whose body is commented out. -/
def adbAuthVerify (_token _sig : List UInt8) : Bool := false

/-! ## The banner -/

/-- `qual_overwrite`. -/
def qualOverwrite (src : List UInt8) : Option (List UInt8) := if src = [] then none else some src

/-- One `key=value` of the banner. -/
def applyProp (x : Atransport) (tok : List UInt8) : Atransport :=
  if 0x3d ∈ tok then
    let key := tok.takeWhile (· ≠ 0x3d)
    let value := (tok.dropWhile (· ≠ 0x3d)).drop 1
    if key = str "ro.product.name" then { x with product := qualOverwrite value }
    else if key = str "ro.product.model" then { x with model := qualOverwrite value }
    else if key = str "ro.product.device" then { x with device := qualOverwrite value }
    else x
  else x

/-- The state a banner's type names. -/
def bannerState (type : List UInt8) : ConnectionState :=
  if type = str "bootloader" then .bootloader
  else if type = str "device" then .device
  else if type = str "recovery" then .recovery
  else if type = str "sideload" then .sideload
  else .host

/-- `parse_banner` of a C string: `type:serial:key=value;...`. -/
def parseBanner (banner : List UInt8) (x : Atransport) : Atransport :=
  let type := banner.takeWhile (· ≠ 0x3a)
  let rest := (banner.dropWhile (· ≠ 0x3a)).drop 1
  let props := (rest.dropWhile (· ≠ 0x3a)).drop 1
  let toks := (props.splitOn 0x3b).filter (· ≠ [])
  { toks.foldl applyProp x with connectionState := bannerState type }

/-! ## Key confirmation -/

/-- `key[len-1]`; for an empty key this is the byte before `data`, the last of `magic`. -/
def lastKeyByte (p : Apacket) : Option UInt8 :=
  if p.msg.dataLength = 0 then some (UInt8.ofNat (p.msg.magic.toNat / 2 ^ 24))
  else p.data[p.msg.dataLength.toNat - 1]?

/-- `adb_auth_confirm_key`. -/
def adbAuthConfirmKey (p : Apacket) (t : TAddr) (D : Daemon) : Except Stop Daemon :=
  match D.frameworkFd with
  | none => pure D
  | some n =>
    if lastKeyByte p ≠ some 0 then pure D
    else do
      let key ← cstr p.data
      let msg := str "PK" ++ key
      if maxPayload ≤ msg.length then pure D
      else
        match writeSome msg D.io.writes with
        | (none, ws) => pure (D.setWrites ws)
        | (some _, ws) => do
          let D := (D.setWrites ws).emit (.confirm t)
          let D ← D.onLoop (Loop.fdeventInstall (.auth t) n)
          D.onLoop (Loop.fdeventAdd (.auth t) fdeRead)

/-- `adb_auth_event`. -/
def adbAuthEvent (ev : BitVec 16) (t : TAddr) (D : Daemon) : Except Stop Daemon :=
  if FlagWord.has ev fdeRead then
    match readSome 2 D.io.reads with
    | (none, rs) => do
      let D := D.setReads rs
      let _ ← D.derefT t
      let D ← D.onLoop (Loop.fdeventRemove (.auth t))
      pure { D.emit (.authDropped t) with frameworkFd := none }
    | (some response, rs) =>
      let D := D.setReads rs
      if response = str "OK" then D.adbAuthVerified t else pure D
  else pure D

/-- `adb_auth_listener`. -/
def adbAuthListener (D : Daemon) : Except Stop Daemon := do
  let (fd, D) ← D.takeFd .framework
  match fd with
  | none => pure D
  | some n => pure { D.emit .frameworkConnected with frameworkFd := some n }

/-! ## `handle_packet` -/

/-- `case A_SYNC`. -/
def handleSync (p : Apacket) (t : TAddr) (D : Daemon) : Except Stop Daemon := do
  if p.msg.arg0 ≠ 0 then
    let D ← D.sendPacket none p (some t)
    if D.config.host then D.sendConnect t else pure D
  else
    let D ← D.modifyT t fun x => { x with connectionState := .offline }
    let D ← D.handleOffline t
    D.sendPacket none p (some t)

/-- `case A_CNXN`. -/
def handleCnxn (p : Apacket) (t : TAddr) (D : Daemon) : Except Stop Daemon := do
  let x ← D.derefT t
  let D ← (if x.connectionState ≠ .offline then do
      let D ← D.modifyT t fun x => { x with connectionState := .offline }
      D.handleOffline t
    else pure D)
  let banner ← cstr p.data
  let D ← D.modifyT t (parseBanner banner)
  if D.config.host || !D.config.authEnabled then do
    let D ← D.handleOnline t
    if D.config.host then pure D else D.sendConnect t
  else D.sendAuthRequest t

/-- `case A_AUTH`.  `adb_auth_nextkey` is a stub that returns no key, so a token is answered
with the (empty) public key. -/
def handleAuth (p : Apacket) (t : TAddr) (D : Daemon) : Except Stop Daemon :=
  if p.msg.arg0 = adbAuthToken then pure D.sendAuthPublickey
  else if p.msg.arg0 = adbAuthSignature then do
    let x ← D.derefT t
    if adbAuthVerify x.token p.payload then
      let D ← D.adbAuthVerified t
      D.modifyT t fun x => { x with failedAuthAttempts := 0 }
    else
      let D ← D.modifyT t fun x => { x with failedAuthAttempts := x.failedAuthAttempts + 1 }
      D.sendAuthRequest t
  else if p.msg.arg0 = adbAuthRsapublickey then D.adbAuthConfirmKey p t
  else pure D

/-- The service name of an `A_OPEN`, whose last byte is overwritten with a NUL. -/
def openName (p : Apacket) : List UInt8 :=
  (p.data.take (p.msg.dataLength.toNat - 1)).takeWhile (· ≠ 0)

/-- `case A_OPEN`. -/
def handleOpen (p : Apacket) (t : TAddr) (D : Daemon) : Except Stop Daemon := do
  let x ← D.derefT t
  if x.online = false then pure D
  else
    let (s, D) ← D.createLocalServiceSocket (openName p)
    match s with
    | none => (D.emit (.refused t p.msg.arg0)).sendClose 0 p.msg.arg0 t
    | some a =>
      let (r, D) ← D.pairRemote a p.msg.arg0 t
      let D := D.emit (.opened r a)
      let s ← D.deref a
      let q ← D.deref r
      let D ← D.sendReady (some r) s.id q.id t
      D.ready a

/-- `case A_OKAY`. -/
def handleOkay (p : Apacket) (t : TAddr) (D : Daemon) : Except Stop Daemon := do
  let x ← D.derefT t
  if x.online = false then pure D
  else
    match D.findLocalSocket p.msg.arg1 with
    | none => pure D
    | some a =>
      let s ← D.deref a
      let D ← (if s.peer = none then do
          let (_, D) ← D.pairRemote a p.msg.arg0 t
          pure D
        else pure D)
      D.ready a

/-- `case A_CLSE`. -/
def handleClse (p : Apacket) (t : TAddr) (D : Daemon) : Except Stop Daemon := do
  let x ← D.derefT t
  if x.online = false then pure D
  else
    match D.findLocalSocket p.msg.arg1 with
    | none => pure D
    | some a => D.close a

/-- The remote socket a socket is paired with. -/
def remoteOf (s : Asocket) (D : Daemon) : Option Addr :=
  s.peer.filter fun r => (D.sockets r).any (·.ops = .remote)

/-- `case A_WRTE`; the flag tells whether the packet is still the caller's. -/
def handleWrte (p : Apacket) (t : TAddr) (D : Daemon) : Except Stop (Bool × Daemon) := do
  let x ← D.derefT t
  if x.online = false then pure (true, D)
  else
    match D.findLocalSocket p.msg.arg1 with
    | none => pure (true, D)
    | some a =>
      let s ← D.deref a
      let via := D.remoteOf s
      let (r, D) ← D.enqueue a { p with len := p.msg.dataLength.toNat }
      let D ← (if r = 0 then D.sendReady via s.id p.msg.arg0 t else pure D)
      pure (false, D)

/-- `handle_packet`. -/
def handlePacket (p : Apacket) (t : TAddr) (D : Daemon) : Except Stop Daemon := do
  let D := D.emit (.received t p)
  if p.msg.command = aSync then D.handleSync p t
  else if p.msg.command = aCnxn then do
    let D ← D.handleCnxn p t
    pure (D.putApacket p)
  else if p.msg.command = aAuth then do
    let D ← D.handleAuth p t
    pure (D.putApacket p)
  else if p.msg.command = aOpen then do
    let D ← D.handleOpen p t
    pure (D.putApacket p)
  else if p.msg.command = aOkay then do
    let D ← D.handleOkay p t
    pure (D.putApacket p)
  else if p.msg.command = aClse then do
    let D ← D.handleClse p t
    pure (D.putApacket p)
  else if p.msg.command = aWrte then do
    let (mine, D) ← D.handleWrte p t
    pure (if mine then D.putApacket p else D)
  else pure (D.putApacket p)

end Daemon

end Adbd
