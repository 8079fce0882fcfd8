import Adbd.Framework.Base64
import Adbd.Model.State

/-!
# Reading base64 (`base64.c`)

`b64_pton` takes its text digit by digit through four states.  In three of them it also writes
the bits that belong to the next byte, one byte ahead of the count of finished bytes, so it needs
one byte more than it returns.

The text is the C string that `src` points to.  `target` is the memory from the pointer on that
the caller has promised with `targsize`: its length is `targsize`, and an access behind it is an
error that names the index.  The index is a `size_t` and what is returned is an `int`.
-/

namespace Adbd

/-! ## `base64.c` -/

/-- `Base64`. -/
def base64Digits : List UInt8 :=
  str "ABCDEFGHIJKLMNOPQRSTUVWXYZabcdefghijklmnopqrstuvwxyz0123456789+/"

def pad64 : UInt8 := 0x3d

/-- The alphabet of `base64.c`. -/
def base64 : Base64.Alphabet UInt8 where
  digits := base64Digits
  pad := pad64
  length_eq := by decide
  nodup := by decide
  pad_notMem := by decide

/-- An access to `target` at an index that is not below `targsize`. -/
structure OutOfBounds where
  index : ℕ
  deriving DecidableEq, Repr

abbrev Target := List UInt8

namespace Target

/-- `target[i]`. -/
def load (t : Target) (i : ℕ) : Except OutOfBounds UInt8 :=
  if h : i < t.length then .ok t[i] else .error ⟨i⟩

/-- `target[i]=v`. -/
def store (t : Target) (i : ℕ) (v : UInt8) : Except OutOfBounds Target :=
  if i < t.length then .ok (t.set i v) else .error ⟨i⟩

end Target

namespace Pton

/-- What comes out: what is returned, which is -1 if it is `none`, and the memory. -/
abbrev Result := Except OutOfBounds (Option ℕ × Target)

/-- The `switch` on the state for a digit with value `pos`; `none` where the target is full. -/
def switch (pos : ℕ) (state : Fin 4) (tarindex : ℕ) (t : Target) :
    Except OutOfBounds (Option (Fin 4 × ℕ × Target)) :=
  match state with
  | 0 =>
    if t.length ≤ tarindex then .ok none
    else do
      let t ← t.store tarindex (UInt8.ofNat (pos <<< 2))
      .ok (some (1, tarindex, t))
  | 1 =>
    if t.length ≤ tarindex + 1 then .ok none
    else do
      let x ← t.load tarindex
      let t ← t.store tarindex (x ||| UInt8.ofNat (pos >>> 4))
      let t ← t.store (tarindex + 1) (UInt8.ofNat ((pos &&& 0x0f) <<< 4))
      .ok (some (2, tarindex + 1, t))
  | 2 =>
    if t.length ≤ tarindex + 1 then .ok none
    else do
      let x ← t.load tarindex
      let t ← t.store tarindex (x ||| UInt8.ofNat (pos >>> 2))
      let t ← t.store (tarindex + 1) (UInt8.ofNat ((pos &&& 0x03) <<< 6))
      .ok (some (3, tarindex + 1, t))
  | 3 =>
    if t.length ≤ tarindex then .ok none
    else do
      let x ← t.load tarindex
      let t ← t.store tarindex (x ||| UInt8.ofNat pos)
      .ok (some (0, tarindex + 1, t))

/-- After the padding: nothing but white space, and no bits left over in the next byte. -/
def tail (src : List UInt8) (tarindex : ℕ) (t : Target) : Result :=
  if src.all Daemon.isSpace then do
    let x ← t.load tarindex
    .ok (if x ≠ 0 then none else some tarindex, t)
  else .ok (none, t)

/-- After the first `Pad64`. -/
def padding (src : List UInt8) (state : Fin 4) (tarindex : ℕ) (t : Target) : Result :=
  match state with
  | 0 | 1 => .ok (none, t)
  | 2 =>
    match src.dropWhile Daemon.isSpace with
    | [] => .ok (none, t)
    | ch :: src => if ch ≠ pad64 then .ok (none, t) else tail src tarindex t
  | 3 => tail src tarindex t

/-- The loop. -/
def loop : List UInt8 → Fin 4 → ℕ → Target → Result
  | [], state, tarindex, t => .ok (if state ≠ 0 then none else some tarindex, t)
  | ch :: src, state, tarindex, t =>
    if Daemon.isSpace ch then loop src state tarindex t
    else if ch = pad64 then padding src state tarindex t
    else
      match base64Digits.idxOf? ch with
      | none => .ok (none, t)
      | some pos =>
        match switch pos state tarindex t with
        | .error e => .error e
        | .ok none => .ok (none, t)
        | .ok (some (state, tarindex, t)) => loop src state tarindex t

end Pton

/-- `b64_pton` up to the conversion of what it returns. -/
def b64PtonCount (src : List UInt8) (target : Target) : Pton.Result := Pton.loop src 0 0 target

/-- What a function of type `int` returns for an index. -/
def asInt : Option ℕ → Int
  | none => -1
  | some n => (n : Int).bmod (2 ^ 32)

lemma asInt_some (n : ℕ) : asInt (some n) = (n : Int).bmod (2 ^ 32) := rfl

lemma asInt_of_lt {n : ℕ} (h : n < 2 ^ 31) : asInt (some n) = n := by
  rw [asInt_some]
  exact Int.bmod_eq_of_le (by omega) (by omega)

lemma asInt_of_le {n : ℕ} (h : 2 ^ 31 ≤ n) (hn : n < 2 ^ 32) :
    asInt (some n) = (n : Int) - 2 ^ 32 := by
  rw [asInt_some, Int.bmod_def, Int.emod_eq_of_lt (by omega) (by omega), if_neg (by omega)]
  rfl

/-- `b64_pton(src,target,targsize)`. -/
def b64Pton (src : List UInt8) (target : Target) : Except OutOfBounds (Int × Target) := do
  let (r, t) ← b64PtonCount src target
  .ok (asInt r, t)

end Adbd
