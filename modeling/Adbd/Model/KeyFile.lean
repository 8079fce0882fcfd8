import Adbd.Framework.Bytes
import Adbd.Framework.Ring
import Adbd.Model.Base64

/-!
# Loading public keys (`read_keys` in `adb_auth_client.c`)

A key file is text.  `read_keys` takes it line by line through a buffer of `MAX_PAYLOAD` bytes,
ends each line at its first space or tab and decodes the rest straight into a key, which it keeps
if the size and the first word are right.

The keys are elements of an intrusive list (`list.c`): `links` are the pointers of their nodes,
`mem` is what the `RSAPublicKey` behind each node holds.  Running into a null pointer or out of
bounds is `none`.
-/

namespace Adbd

open Bytes

/-! ## `fgets` -/

/-- `fgets(buf,n+1,file)` where there is something to read: what `buf` holds up to the
terminator, and the rest of the file. -/
def fgets : ℕ → List UInt8 → List UInt8 × List UInt8
  | 0, file => ([], file)
  | _ + 1, [] => ([], [])
  | n + 1, c :: file =>
    if c = 0x0a then ([c], file)
    else
      let (buf, file) := fgets n file
      (c :: buf, file)

/-! ## Keys -/

/-- `RSANUMWORDS`. -/
def rsaNumWords : ℕ := 64

/-- `sizeof(RSAPublicKey)`: `len`, `n0inv`, `n`, `rr` and `exponent`. -/
def sizeofKey : ℕ := 4 + 4 + 4 * rsaNumWords + 4 * rsaNumWords + 4

/-- `MAX_PAYLOAD-1`, the room in the buffer of `read_keys`. -/
def keyBufRoom : ℕ := maxPayload - 1

/-- The buffer up to its first space or tab, as `strpbrk` leaves it. -/
def firstField (buf : List UInt8) : List UInt8 := buf.takeWhile fun c => c ≠ 0x20 ∧ c ≠ 0x09

/-- What a round of `read_keys` makes of its buffer: the key, if there is one. -/
def decodeKey (buf : List UInt8) : Option (Option (List UInt8)) :=
  match b64Pton (firstField (buf.takeWhile (· ≠ 0))) (List.replicate (sizeofKey + 4) 0) with
  | .error _ => none
  | .ok (ret, t) =>
    if ret ≠ sizeofKey then some none
    else
      let key := t.take sizeofKey
      -- `key->key.len`
      if leValue (key.take 4) ≠ rsaNumWords then some none else some (some key)

/-- A list of keys. -/
structure KeyList where
  /-- The pointers of the nodes. -/
  links : Ring.Links ℕ := .empty
  /-- The `RSAPublicKey` behind a node. -/
  mem : ℕ → List UInt8 := fun _ => []
  /-- The next node `calloc` returns. -/
  nextAddr : ℕ := 0

/-- `list_add_tail(list,&key->node)` of a new key. -/
def KeyList.addTail (key : List UInt8) (K : KeyList) : Option KeyList := do
  let links ← K.links.append K.nextAddr
  some { links := links, mem := Function.update K.mem K.nextAddr key, nextAddr := K.nextAddr + 1 }

/-- One round of the loop, once the key is allocated. -/
def readKey (buf : List UInt8) (K : KeyList) : Option KeyList := do
  match ← decodeKey buf with
  | none => some K
  | some key => K.addTail key

/-- The loop of `read_keys`, which takes something off the file in each round; `callocs` tells
which allocations work, all of them when it is used up. -/
def readKeysLoop : ℕ → List UInt8 → List Bool → KeyList → Option KeyList
  | 0, _, _, K => some K
  | n + 1, file, callocs, K =>
    if file = [] then some K
    else if callocs.head? = some false then some K
    else do
      let K ← readKey (fgets keyBufRoom file).1 K
      readKeysLoop n (fgets keyBufRoom file).2 callocs.tail K

/-- `read_keys`; `file` is what it reads, if it can be opened. -/
def readKeys (file : Option (List UInt8)) (callocs : List Bool) (K : KeyList) : Option KeyList :=
  match file with
  | none => some K
  | some file => readKeysLoop (file.length + 1) file callocs K

end Adbd
