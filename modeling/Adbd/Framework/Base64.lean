import Mathlib.Data.List.Basic
import Mathlib.Data.List.GetD
import Mathlib.Data.List.Nodup
import Mathlib.Tactic.Lemma

/-!
# Base64

The standard padded encoding over any alphabet of 64 digits and a sign for padding.  Three bytes
become four digits of six bits; one or two bytes at the end become a group that is filled up with
padding, and the bits that are left over in its last digit are zero.

`byte₀`, `byte₁` and `byte₂` put the digits of a group together again.  The lemmas `encode_quad`,
`encode_triple` and `encode_pair` say what a group encodes, `eq_quad` and the two after it that
every group is of that form.
-/

namespace Base64

/-- An alphabet for base64. -/
structure Alphabet (γ : Type*) where
  digits : List γ
  pad : γ
  length_eq : digits.length = 64
  nodup : digits.Nodup
  pad_notMem : pad ∉ digits

namespace Alphabet

variable {γ : Type*} (A : Alphabet γ) {v v₀ v₁ v₂ v₃ : ℕ} {a b c : UInt8} {bs : List UInt8}

/-- The digit with value `v`. -/
def digit (v : ℕ) : γ := A.digits.getD v A.pad

/-- The encoding of a byte string. -/
def encode : List UInt8 → List γ
  | [] => []
  | [a] => [A.digit (a.toNat / 4), A.digit (a.toNat % 4 * 16), A.pad, A.pad]
  | [a, b] =>
    [A.digit (a.toNat / 4), A.digit (a.toNat % 4 * 16 + b.toNat / 16),
      A.digit (b.toNat % 16 * 4), A.pad]
  | a :: b :: c :: bs =>
    A.digit (a.toNat / 4) :: A.digit (a.toNat % 4 * 16 + b.toNat / 16) ::
      A.digit (b.toNat % 16 * 4 + c.toNat / 64) :: A.digit (c.toNat % 64) :: encode bs

/-- The first byte of a group. -/
def byte₀ (v₀ v₁ : ℕ) : UInt8 := UInt8.ofNat (v₀ * 4 + v₁ / 16)

/-- The second byte of a group. -/
def byte₁ (v₁ v₂ : ℕ) : UInt8 := UInt8.ofNat (v₁ % 16 * 16 + v₂ / 4)

/-- The third byte of a group. -/
def byte₂ (v₂ v₃ : ℕ) : UInt8 := UInt8.ofNat (v₂ % 4 * 64 + v₃)

/-! ## Digits -/

lemma digit_mem (hv : v < 64) : A.digit v ∈ A.digits := by
  rw [digit, List.getD_eq_getElem _ _ (by rwa [A.length_eq])]
  exact List.getElem_mem _

lemma digit_ne_pad (hv : v < 64) : A.digit v ≠ A.pad := fun h =>
  A.pad_notMem (h ▸ A.digit_mem hv)

/-- Looking a digit up gives its value. -/
lemma idxOf?_digit [DecidableEq γ] (hv : v < 64) : A.digits.idxOf? (A.digit v) = some v := by
  have hlt : v < A.digits.length := by rwa [A.length_eq]
  rw [List.idxOf?_eq_some_iff]
  refine ⟨hlt, by rw [digit, List.getD_eq_getElem _ _ hlt], fun j hj h => ?_⟩
  rw [digit, List.getD_eq_getElem _ _ hlt] at h
  exact absurd ((A.nodup.getElem_inj_iff).mp h) (by omega)

/-- What can be looked up is a digit. -/
lemma eq_digit_of_idxOf? [DecidableEq γ] {x : γ} (h : A.digits.idxOf? x = some v) :
    v < 64 ∧ x = A.digit v := by
  obtain ⟨hlt, hx, -⟩ := List.idxOf?_eq_some_iff.mp h
  exact ⟨by rwa [← A.length_eq], by rw [digit, List.getD_eq_getElem _ _ hlt, hx]⟩

/-! ## Groups -/

lemma toNat_byte₀ (h₀ : v₀ < 64) (h₁ : v₁ < 64) : (byte₀ v₀ v₁).toNat = v₀ * 4 + v₁ / 16 := by
  rw [byte₀, UInt8.toNat_ofNat', Nat.mod_eq_of_lt (by omega)]

lemma toNat_byte₁ (h₂ : v₂ < 64) : (byte₁ v₁ v₂).toNat = v₁ % 16 * 16 + v₂ / 4 := by
  rw [byte₁, UInt8.toNat_ofNat', Nat.mod_eq_of_lt (by omega)]

lemma toNat_byte₂ (h₃ : v₃ < 64) : (byte₂ v₂ v₃).toNat = v₂ % 4 * 64 + v₃ := by
  rw [byte₂, UInt8.toNat_ofNat', Nat.mod_eq_of_lt (by omega)]

/-- Four digits encode the three bytes they make up. -/
lemma encode_quad (h₀ : v₀ < 64) (h₁ : v₁ < 64) (h₂ : v₂ < 64) (h₃ : v₃ < 64) :
    A.encode (byte₀ v₀ v₁ :: byte₁ v₁ v₂ :: byte₂ v₂ v₃ :: bs) =
      A.digit v₀ :: A.digit v₁ :: A.digit v₂ :: A.digit v₃ :: A.encode bs := by
  have hd₀ : (v₀ * 4 + v₁ / 16) / 4 = v₀ := by omega
  have hd₁ : (v₀ * 4 + v₁ / 16) % 4 * 16 + (v₁ % 16 * 16 + v₂ / 4) / 16 = v₁ := by omega
  have hd₂ : (v₁ % 16 * 16 + v₂ / 4) % 16 * 4 + (v₂ % 4 * 64 + v₃) / 64 = v₂ := by omega
  have hd₃ : (v₂ % 4 * 64 + v₃) % 64 = v₃ := by omega
  rw [encode, toNat_byte₀ h₀ h₁, toNat_byte₁ h₂, toNat_byte₂ h₃, hd₀, hd₁, hd₂, hd₃]

/-- Three digits, of which the last has nothing left over, encode two bytes. -/
lemma encode_triple (h₀ : v₀ < 64) (h₁ : v₁ < 64) (h₂ : v₂ < 64) (hrest : v₂ % 4 = 0) :
    A.encode [byte₀ v₀ v₁, byte₁ v₁ v₂] = [A.digit v₀, A.digit v₁, A.digit v₂, A.pad] := by
  have hd₀ : (v₀ * 4 + v₁ / 16) / 4 = v₀ := by omega
  have hd₁ : (v₀ * 4 + v₁ / 16) % 4 * 16 + (v₁ % 16 * 16 + v₂ / 4) / 16 = v₁ := by omega
  have hd₂ : (v₁ % 16 * 16 + v₂ / 4) % 16 * 4 = v₂ := by omega
  rw [encode, toNat_byte₀ h₀ h₁, toNat_byte₁ h₂, hd₀, hd₁, hd₂]

/-- Two digits, of which the last has nothing left over, encode one byte. -/
lemma encode_pair (h₀ : v₀ < 64) (h₁ : v₁ < 64) (hrest : v₁ % 16 = 0) :
    A.encode [byte₀ v₀ v₁] = [A.digit v₀, A.digit v₁, A.pad, A.pad] := by
  have hd₀ : (v₀ * 4 + v₁ / 16) / 4 = v₀ := by omega
  have hd₁ : (v₀ * 4 + v₁ / 16) % 4 * 16 = v₁ := by omega
  rw [encode, toNat_byte₀ h₀ h₁, hd₀, hd₁]

/-- Every three bytes are made up of four digits. -/
lemma eq_quad (a b c : UInt8) : ∃ v₀ v₁ v₂ v₃, v₀ < 64 ∧ v₁ < 64 ∧ v₂ < 64 ∧ v₃ < 64 ∧
    a = byte₀ v₀ v₁ ∧ b = byte₁ v₁ v₂ ∧ c = byte₂ v₂ v₃ := by
  have ha := a.toNat_lt
  have hb := b.toNat_lt
  have hc := c.toNat_lt
  refine ⟨a.toNat / 4, a.toNat % 4 * 16 + b.toNat / 16, b.toNat % 16 * 4 + c.toNat / 64,
    c.toNat % 64, by omega, by omega, by omega, by omega, ?_, ?_, ?_⟩
  · rw [← UInt8.toNat_inj, toNat_byte₀ (by omega) (by omega)]
    omega
  · rw [← UInt8.toNat_inj, toNat_byte₁ (by omega)]
    omega
  · rw [← UInt8.toNat_inj, toNat_byte₂ (by omega)]
    omega

lemma eq_triple (a b : UInt8) : ∃ v₀ v₁ v₂, v₀ < 64 ∧ v₁ < 64 ∧ v₂ < 64 ∧ v₂ % 4 = 0 ∧
    a = byte₀ v₀ v₁ ∧ b = byte₁ v₁ v₂ := by
  have ha := a.toNat_lt
  have hb := b.toNat_lt
  refine ⟨a.toNat / 4, a.toNat % 4 * 16 + b.toNat / 16, b.toNat % 16 * 4, by omega, by omega,
    by omega, by omega, ?_, ?_⟩
  · rw [← UInt8.toNat_inj, toNat_byte₀ (by omega) (by omega)]
    omega
  · rw [← UInt8.toNat_inj, toNat_byte₁ (by omega)]
    omega

lemma eq_pair (a : UInt8) : ∃ v₀ v₁, v₀ < 64 ∧ v₁ < 64 ∧ v₁ % 16 = 0 ∧ a = byte₀ v₀ v₁ := by
  have ha := a.toNat_lt
  refine ⟨a.toNat / 4, a.toNat % 4 * 16, by omega, by omega, by omega, ?_⟩
  rw [← UInt8.toNat_inj, toNat_byte₀ (by omega) (by omega)]
  omega

end Alphabet

end Base64
