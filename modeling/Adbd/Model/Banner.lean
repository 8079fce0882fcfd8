import Adbd.Model.HandlePacket

/-!
# The connection banner in its buffer (`fill_connect_data`)

`Adbd.Model.HandlePacket` takes the text of the banner as a whole.  Here it is printed the way
`fill_connect_data` prints it: four `snprintf` calls into one buffer, each told that as many
bytes are left as the calls before it did not *want* to write.  `size_t` and the pointer wrap
around at `2 ^ 64`; a byte written outside of the buffer is a stop.
-/

namespace Adbd

namespace Banner

/-! ## `snprintf` -/

/-- The bytes `snprintf` writes when it is given `size` bytes of room for `text`. -/
def printed (size : UInt64) (text : List UInt8) : List UInt8 :=
  if size = 0 then [] else text.take (size.toNat - 1) ++ [0]

/-- What `snprintf` returns, as a `size_t`: the length of the whole text, or `-1` where that is
no `int`. -/
def printedLength (text : List UInt8) : UInt64 :=
  if text.length < 2 ^ 31 then UInt64.ofNat text.length else -1

/-- `buf` relative to the start of the buffer, `remaining`, and the buffer. -/
structure Printer where
  buf : UInt64
  remaining : UInt64
  data : List UInt8
  deriving DecidableEq, Repr

/-- `len=snprintf(buf,remaining,...); remaining-=len; buf+=len;` -/
def Printer.print (text : List UInt8) (P : Printer) : Except Stop Printer :=
  let bytes := printed P.remaining text
  let start := P.buf.toNat
  if bytes = [] ∨ start + bytes.length ≤ P.data.length then
    .ok { buf := P.buf + printedLength text,
          remaining := P.remaining - printedLength text,
          data := P.data.take start ++ bytes ++ P.data.drop (start + bytes.length) }
  else .error .overflow

/-! ## `fill_connect_data` -/

/-- `cnxn_props`. -/
def cnxnProps : List (List UInt8) :=
  [str "ro.product.name", str "ro.product.model", str "ro.product.device"]

/-- The text of `"%s=%s;"` for property `i`. -/
def propText (c : Config) (i : ℕ) : List UInt8 :=
  cnxnProps.getD i [] ++ str "=" ++ c.values.getD i [] ++ str ";"

/-- `fill_connect_data` on a buffer of `data.length` bytes: the buffer afterwards and the value
returned. -/
def fillConnectData (c : Config) (data : List UInt8) : Except Stop (List UInt8 × UInt64) := do
  let bufsize := UInt64.ofNat data.length
  let P ← Printer.print (c.banner ++ str "::") { buf := 0, remaining := bufsize, data := data }
  let P ← P.print (propText c 0)
  let P ← P.print (propText c 1)
  let P ← P.print (propText c 2)
  pure (P.data, bufsize - P.remaining + 1)

/-- The whole text, without its terminator. -/
def bannerText (c : Config) : List UInt8 :=
  c.banner ++ str "::" ++ propText c 0 ++ propText c 1 ++ propText c 2

/-- The message `send_connect` sends if `fill_connect_data` returned `n`. -/
def connectMessage (n : UInt64) : Amessage where
  command := aCnxn
  arg0 := aVersion
  arg1 := UInt32.ofNat maxPayload
  dataLength := UInt32.ofNat n.toNat
  magic := aCnxn ^^^ 0xffffffff

/-- The text is the one the daemon's packets carry. -/
lemma connectData_eq (c : Config) : Daemon.connectData c = bannerText c ++ [0] := by
  simp [Daemon.connectData, bannerText, propText, cnxnProps, str]

end Banner

end Adbd
