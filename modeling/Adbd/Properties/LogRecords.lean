import Mathlib.Order.Nat
import Adbd.Model.ServiceStreams

/-!
# What a log leaves the device with

`log_service` takes each `read` for one entry and believes the length that stands in it: it stores
a NUL behind the message and sends header and message.  A shorter `read`, down to less than a
header, makes it send what an earlier one or the stack left in the buffer; a longer length makes
it store outside.  Both lengths come from the file.  So it stays within what was read if and only
if every `read` returns at least the header and the message it announces.
-/

namespace Adbd.LogRecords

open Bytes Syscall

/-- What the reads return before the file ends or fails. -/
def chunks : List LogRead → List (List UInt8)
  | [] => []
  | .retry :: rs => chunks rs
  | .fail :: _ => []
  | .data bs _ :: rs => if bs = [] then [] else bs :: chunks rs

/-- A chunk holds the header and the message that its length announces. -/
def Whole (chunk : List UInt8) : Prop := loggerEntrySize + entryLen chunk ≤ chunk.length

instance (chunk : List UInt8) : Decidable (Whole chunk) := inferInstanceAs (Decidable (_ ≤ _))

/-- A round stores inside of the buffer and sends from what was read. -/
structure Contained (r : LogRound) : Prop where
  inside : r.nul < loggerEntryMaxLen + 1
  within : r.size ≤ r.read.length

/-- Every round is contained, and what the host has got comes from the file. -/
structure Faithful (log : List LogRead) (run : List LogRound × Sink) : Prop where
  contained : ∀ r ∈ run.1, Contained r
  fromFile : run.2.output.Sublist (chunks log).flatten

section Rounds

variable {bs buf : List UInt8} {rs log : List LogRead} {host : Sink}

/-- A chunk with a whole length field hides the rest of the buffer from it. -/
lemma entryLen_append (h : 2 ≤ bs.length) : entryLen (bs ++ buf) = entryLen bs := by
  rw [entryLen, List.take_append_of_le_length h, entryLen]

/-- The NUL is behind the header. -/
lemma entryLen_set (n : ℕ) : entryLen (buf.set (loggerEntrySize + n) 0) = entryLen buf := by
  rw [entryLen, List.take_set_of_le (by rw [loggerEntrySize]; omega), entryLen]

/-- What a round announces fits into the chunk only if the chunk is whole. -/
lemma whole_iff : loggerEntrySize + entryLen (bs ++ buf) ≤ bs.length ↔ Whole bs := by
  by_cases h : 2 ≤ bs.length
  · rw [entryLen_append h, Whole]
  · rw [Whole, loggerEntrySize]
    omega

/-- A write adds a prefix of what it is given. -/
lemma writeLogEntry_output : ∃ out, out <+: buf.take (loggerEntrySize + entryLen buf) ∧
    (writeLogEntry buf host).output = host.output ++ out := by
  obtain ⟨out, hpre, hout, -⟩ := Sink.write_cases (k := host) rfl
  exact ⟨out, hpre, hout⟩

/-- A round over a whole chunk sends a prefix of the chunk. -/
lemma writeLogEntry_whole (hwhole : Whole bs) :
    ∃ out, out <+: bs ∧
      (writeLogEntry ((bs ++ buf).set (loggerEntrySize + entryLen (bs ++ buf)) 0) host).output =
        host.output ++ out := by
  obtain ⟨out, hpre, hout⟩ := @writeLogEntry_output
    ((bs ++ buf).set (loggerEntrySize + entryLen (bs ++ buf)) 0) host
  refine ⟨out, hpre.trans ?_, hout⟩
  rw [entryLen_set, List.take_set_of_le (le_refl _),
    List.take_append_of_le_length (whole_iff.mpr hwhole)]
  exact List.take_prefix _ _

end Rounds

/-! ## The loop -/

section Loop

variable {rs : List LogRead}

/-- Over whole chunks every round is contained and sends a part of its chunk. -/
lemma contained_of_whole (h : ∀ c ∈ chunks rs, Whole c) (buf : List UInt8) (host : Sink) :
    (∀ r ∈ (logLoop rs buf host).1, Contained r) ∧
      ∃ out, out.Sublist (chunks rs).flatten ∧
        (logLoop rs buf host).2.output = host.output ++ out := by
  induction rs generalizing buf host with
  | nil => exact ⟨nofun, [], List.nil_sublist _, (List.append_nil _).symm⟩
  | cons r rs ih =>
    cases r with
    | retry => exact ih h buf host
    | fail => exact ⟨nofun, [], List.nil_sublist _, (List.append_nil _).symm⟩
    | data bs hmax =>
      rw [logLoop, chunks]
      by_cases hbs : bs = []
      case pos =>
        rw [if_pos hbs, if_pos hbs]
        exact ⟨nofun, [], List.nil_sublist _, (List.append_nil _).symm⟩
      rw [chunks, if_neg hbs] at h
      have hwhole : Whole bs := h bs (List.mem_cons_self ..)
      have hsize := (@whole_iff bs (buf.drop bs.length)).mpr hwhole
      rw [if_neg hbs, if_neg hbs, if_neg (by omega)]
      obtain ⟨out, hpre, hout⟩ := @writeLogEntry_whole bs (buf.drop bs.length) host hwhole
      obtain ⟨hrounds, out', hsub, hout'⟩ := ih (fun c hc => h c (List.mem_cons_of_mem _ hc))
        ((bs ++ buf.drop bs.length).set
          (loggerEntrySize + entryLen (bs ++ buf.drop bs.length)) 0)
        (writeLogEntry ((bs ++ buf.drop bs.length).set
          (loggerEntrySize + entryLen (bs ++ buf.drop bs.length)) 0) host)
      refine ⟨fun r hr => ?_, out ++ out', ?_, ?_⟩
      · rcases List.mem_cons.mp hr with rfl | hr
        · exact ⟨by dsimp only; omega, by rw [entryLen_set]; exact hsize⟩
        · exact hrounds r hr
      · rw [List.flatten_cons]
        exact hpre.sublist.append hsub
      · exact hout'.trans (by rw [hout, List.append_assoc])

/-- A round over a chunk that is not whole is not contained. -/
lemma whole_of_contained {buf : List UInt8} {host : Sink}
    (h : ∀ r ∈ (logLoop rs buf host).1, Contained r) : ∀ c ∈ chunks rs, Whole c := by
  induction rs generalizing buf host with
  | nil => exact nofun
  | cons r rs ih =>
    cases r with
    | retry => exact ih h
    | fail => exact nofun
    | data bs hmax =>
      rw [logLoop] at h
      rw [chunks]
      by_cases hbs : bs = []
      case pos =>
        rw [if_pos hbs]
        exact nofun
      rw [if_neg hbs] at h ⊢
      dsimp only at h
      by_cases hout : loggerEntryMaxLen + 1 ≤
          loggerEntrySize + entryLen (bs ++ buf.drop bs.length)
      case pos =>
        rw [if_pos hout] at h
        have hin := (h _ (List.mem_cons_self ..)).inside
        exact absurd hin (Nat.not_lt.mpr hout)
      case neg =>
        rw [if_neg hout] at h
        have hsize := (h _ (List.mem_cons_self ..)).within
        dsimp only at hsize
        rw [entryLen_set] at hsize
        intro c hc
        rcases List.mem_cons.mp hc with rfl | hc
        · exact whole_iff.mp hsize
        · exact ih (fun r hr => h r (List.mem_cons_of_mem _ hr)) c hc

end Loop

/-- The service stays within what it has read if and only if every chunk is whole. -/
theorem log_faithful_iff (log : List LogRead) (buf : List UInt8) (replies : List WriteResult) :
    Faithful log (logService (some log) buf { replies := replies }) ↔
      ∀ c ∈ chunks log, Whole c := by
  refine ⟨fun h => whole_of_contained h.contained, fun h => ?_⟩
  obtain ⟨hrounds, out, hsub, hout⟩ := contained_of_whole h buf { replies := replies }
  exact ⟨hrounds, by rwa [logService, hout, List.nil_append]⟩

/-- A header whose length is 5 and no message, after an entry with the message `secret`: the
second entry repeats what the buffer still holds of the first. -/
theorem not_faithful_stale :
    ¬ Faithful [.data (6 :: List.replicate 19 0 ++ str "secret") (by decide),
        .data (5 :: List.replicate 19 0) (by decide)]
      (logService (some [.data (6 :: List.replicate 19 0 ++ str "secret") (by decide),
        .data (5 :: List.replicate 19 0) (by decide)]) (List.replicate 5121 0) {}) := fun h =>
  absurd (whole_of_contained h.contained (5 :: List.replicate 19 0) (by decide)) (by decide)

end Adbd.LogRecords
