import Mathlib.Order.Nat
import Adbd.Model.ServiceStreams

/-!
# The answer to a recovery upload

`recover_service` counts down what is still to come, so its counter is zero exactly when every
byte has been received and written.  It then answers `count?"OKAY":"FAIL"`, which is the wrong way
round: a host reads `FAIL` after a complete upload and `OKAY` after one that broke off.  Where
`/tmp/update` cannot be created it reads nothing.
-/

namespace Adbd.RecoverUpload

open Bytes Syscall

/-- The first `count` bytes from the client are in `/tmp/update`, in order. -/
def Stored (count : UInt32) (client : List ReadResult) (r : Recovery) : Prop :=
  count.toNat ≤ (bytesOf client).length ∧
    r.update.map Sink.output = some ((bytesOf client).take count.toNat)

/-- The answer says whether the upload is stored. -/
structure StatusRight (count : UInt32) (client : List ReadResult) (r : Recovery) : Prop where
  okay : r.answer = some (str "OKAY") ↔ Stored count client r
  fail : r.answer = some (str "FAIL") ↔ ¬ Stored count client r

/-! ## The loop -/

section Loop

variable {client client' : List ReadResult} {file file' : Sink} {count left n : ℕ} {ok : Bool}
  {bs : List UInt8}

/-- What is left to come when the loop is left is zero exactly when everything has been stored. -/
lemma recoverLoop_stored (hn : count < n)
    (h : recoverLoop n count client file = (left, client', file')) :
    ∃ out, file'.output = file.output ++ out ∧
      (left = 0 → count ≤ (bytesOf client).length ∧ out = (bytesOf client).take count) ∧
      (left ≠ 0 → out.length < count) := by
  induction n generalizing count client file with
  | zero => omega
  | succ n ih =>
    rw [recoverLoop] at h
    by_cases hcount : 0 < count
    case neg =>
      obtain rfl : count = 0 := by omega
      cases h
      exact ⟨[], by simp, fun _ => by simp, fun h => absurd rfl h⟩
    rw [if_pos hcount] at h
    generalize hx : (if 4096 < count then 4096 else count) = xfer at h
    have hxfer : 0 < xfer ∧ xfer ≤ count := by
      rw [← hx]
      split <;> omega
    simp only at h
    split at h
    case h_1 =>
      cases h
      exact ⟨[], by simp, fun h => by omega, fun _ => hcount⟩
    case h_2 bs client₁ hread =>
      obtain ⟨hlen, hbytes⟩ := readFull_some hread
      split at h
      case h_1 file₁ hw =>
        -- a write fails with less than the block in the file
        cases h
        obtain ⟨out, -, hout, -, hless⟩ := Sink.write_cases hw
        exact ⟨out, hout, fun h => by omega, fun _ => by have := hless rfl; omega⟩
      case h_2 file₁ hw =>
        obtain ⟨out, -, hout, hall, -⟩ := Sink.write_cases hw
        obtain rfl := hall rfl
        obtain ⟨out', hout', hdone, hless⟩ := ih (by omega) h
        refine ⟨out ++ out', by rw [hout', hout, List.append_assoc], fun h0 => ?_, fun h0 => ?_⟩
        · obtain ⟨hle, rfl⟩ := hdone h0
          refine ⟨?_, ?_⟩
          · rw [hbytes, List.length_append]
            omega
          · have hwhole : out.take count = out := List.take_of_length_le (by omega)
            rw [hbytes, List.take_append, hwhole, hlen]
        · have := hless h0
          rw [List.length_append]
          omega

end Loop

/-! ## The answer -/

section Answer

variable {count : UInt32} {client : List ReadResult} {replies : List WriteResult}

/-- A stored upload is answered with `FAIL` and any other with `OKAY`. -/
lemma answer_inverted :
    let r := recoverService count client (some replies)
    Stored count client r ∧ r.answer = some (str "FAIL") ∨
      ¬ Stored count client r ∧ r.answer = some (str "OKAY") := by
  obtain ⟨left, client', file, hloop⟩ : ∃ left client' file,
      recoverLoop (count.toNat + 1) count.toNat client { replies := replies } =
        (left, client', file) := ⟨_, _, _, rfl⟩
  obtain ⟨out, hout, hdone, hless⟩ := recoverLoop_stored (Nat.lt_succ_self _) hloop
  rw [List.nil_append] at hout
  simp only [recoverService, hloop]
  by_cases h0 : left = 0
  · obtain ⟨hle, rfl⟩ := hdone h0
    exact .inl ⟨⟨hle, congrArg some hout⟩, by simp [h0]⟩
  · refine .inr ⟨fun ⟨hle, hfile⟩ => ?_, by simp [h0]⟩
    have hlen : out.length = count.toNat := by
      rw [← hout, Option.some.inj hfile, List.length_take, min_eq_left hle]
    exact absurd (hless h0) (by omega)

/-- No upload gets the answer that fits. -/
theorem not_statusRight (count : UInt32) (client : List ReadResult)
    (update : Option (List WriteResult)) :
    ¬ StatusRight count client (recoverService count client update) := by
  intro hright
  have hdistinct : some (str "OKAY") ≠ some (str "FAIL") := by decide
  cases update with
  | none => exact absurd (hright.fail.mpr nofun) nofun
  | some replies =>
    obtain ⟨hstored, hans⟩ | ⟨hstored, hans⟩ :=
      @answer_inverted count client replies
    · exact hdistinct ((hright.okay.mpr hstored).symm.trans hans)
    · exact hdistinct (hans.symm.trans (hright.fail.mpr hstored))

/-- The upload of two bytes that is stored and answered with `FAIL`. -/
theorem not_statusRight_pair : ¬ StatusRight 2 [.data [1, 2]]
    (recoverService 2 [.data [1, 2]] (some [])) := fun h =>
  absurd (h.okay.mpr ⟨by decide, by decide⟩) (by decide)

end Answer

end Adbd.RecoverUpload
