import Mathlib.Order.Nat
import Adbd.Model.Services

/-!
# The messages of the trackers

A tracker gets the list of JDWP processes twice in different ways: once when its host is ready
for it, in a message as long as a packet allows, and after every change, in one that was formatted
into a buffer of 1024 bytes.  Both leave out what does not fit, at the end of a line.  So the two
say the same as long as the lines of all processes fit into the smaller of the two.
-/

namespace Adbd.TrackerMessages

open Daemon

/-- What `jdwp_process_list_updated` sends. -/
def updatedMessage (procs : List JdwpProcess) : List UInt8 := jdwpProcessListMsg 1024 procs

/-- What `jdwp_tracker_ready` sends. -/
def readyMessage (procs : List JdwpProcess) : List UInt8 := jdwpProcessListMsg maxPayload procs

lemma jdwpProcessListUpdated_eq (D : Daemon) :
    D.jdwpProcessListUpdated = D.notifyTrackers (updatedMessage D.jdwpList) D.jdwpTrackersList :=
  rfl

/-- The lines of the known processes. -/
def lines (procs : List JdwpProcess) : List UInt8 :=
  (procs.filter fun proc => 0 ≤ proc.pid).flatMap fun proc => pidLine proc.pid

/-- The four digits at the front of a message are the number of bytes behind them. -/
def Counted (msg : List UInt8) : Prop :=
  4 ≤ msg.length ∧ unhex (msg.take 4) = some (msg.length - 4)

/-- The messages agree, and say what they should. -/
structure Agree (procs : List JdwpProcess) : Prop where
  same : updatedMessage procs = readyMessage procs
  complete : (readyMessage procs).drop 4 = lines procs
  counted : Counted (updatedMessage procs) ∧ Counted (readyMessage procs)

/-! ## The header -/

section Header

variable {bs : List UInt8} {c : UInt8} {n d : ℕ}

/-- The bytes of the hexadecimal digits. -/
def hexDigits (n : ℕ) : List UInt8 := (Nat.toDigits 16 n).map fun c => UInt8.ofNat c.toNat

lemma unhex_append : unhex (bs ++ [c]) = (unhex bs).bind fun n =>
    (unhex [c]).map fun d => 16 * n + d := by
  rw [unhex, List.foldl_append, ← unhex]
  cases unhex bs with
  | none => rfl
  | some n =>
    simp only [List.foldl_cons, List.foldl_nil, Option.bind_eq_bind, Option.bind_some, unhex,
      Option.pure_def]
    split <;> [skip; split <;> [skip; split]] <;> simp

lemma unhex_digit (hd : d < 16) : unhex [UInt8.ofNat d.digitChar.toNat] = some d := by
  decide +revert

/-- Reading digits back. -/
lemma unhex_hexDigits (n : ℕ) : unhex (hexDigits n) = some n := by
  induction n using Nat.strongRecOn with
  | ind n ih =>
    rw [hexDigits, Nat.toDigits_eq_if (by decide)]
    split
    case isTrue hlt => exact unhex_digit hlt
    case isFalse hge =>
      rw [List.map_append, List.map_singleton, unhex_append, ← hexDigits, ih (n / 16) (by omega),
        unhex_digit (Nat.mod_lt n (by decide)), Option.bind_some, Option.map_some,
        Nat.div_add_mod]

/-- Zeros in front make no difference. -/
lemma unhex_zeros (k : ℕ) : unhex (List.replicate k 0x30 ++ bs) = unhex bs := by
  induction k with
  | zero => rfl
  | succ k ih => exact ih

lemma length_hex4 (hn : n < 16 ^ 4) : (hex4 n).length = 4 := by
  have hlen : (hexDigits n).length ≤ 4 := by
    rw [hexDigits, List.length_map, Nat.length_toDigits_le_iff (by decide) (by decide)]
    exact hn
  rw [hex4, ← hexDigits, List.length_append, List.length_replicate]
  omega

/-- A message counts what follows its header, if that has four digits. -/
lemma counted_of_lt (hlen : bs.length < 16 ^ 4) : Counted ((hex4 bs.length).take 4 ++ bs) := by
  have hhex := length_hex4 hlen
  rw [List.take_of_length_le hhex.le]
  refine ⟨by rw [List.length_append]; omega, ?_⟩
  rw [List.take_left' hhex, List.length_append, hhex, Nat.add_sub_cancel_left, hex4, ← hexDigits,
    unhex_zeros, unhex_hexDigits]

end Header

/-! ## The lines -/

section Lines

variable {proc : JdwpProcess} {procs : List JdwpProcess} {room : ℕ}

lemma lines_unknown (h : proc.pid < 0) : lines (proc :: procs) = lines procs := by
  rw [lines, List.filter_cons_of_neg (by simpa using h), ← lines]

lemma lines_known (h : ¬proc.pid < 0) :
    lines (proc :: procs) = pidLine proc.pid ++ lines procs := by
  rw [lines, List.filter_cons_of_pos (by simpa using h), List.flatMap_cons, ← lines]

/-- The text leaves room for the terminator. -/
lemma length_jdwpProcessList_lt (hroom : 0 < room) :
    (jdwpProcessList room procs).length < room := by
  induction procs generalizing room with
  | nil => exact hroom
  | cons proc procs ih =>
    rw [jdwpProcessList]
    split
    · exact ih hroom
    split
    case isTrue => exact hroom
    case isFalse hfits =>
      have hrest := @ih (room - (pidLine proc.pid).length) (by omega)
      rw [List.length_append]
      omega

/-- All lines are there if they and the terminator fit. -/
lemma jdwpProcessList_of_fits (h : (lines procs).length < room) :
    jdwpProcessList room procs = lines procs := by
  induction procs generalizing room with
  | nil => rfl
  | cons proc procs ih =>
    rw [jdwpProcessList]
    split
    case isTrue hneg =>
      rw [lines_unknown hneg] at h ⊢
      exact ih h
    case isFalse hknown =>
      rw [lines_known hknown] at h ⊢
      rw [List.length_append] at h
      rw [if_neg (by omega), ih (by omega)]

end Lines

/-! ## The main result -/

variable {procs : List JdwpProcess} {bufferlen : ℕ}

/-- Whatever fits, the header of a message counts it. -/
lemma counted_msg (hmin : 4 < bufferlen) (hmax : bufferlen < 16 ^ 4) :
    Counted (jdwpProcessListMsg bufferlen procs) := by
  have hlen : (jdwpProcessList (bufferlen - 4) procs).length < bufferlen - 4 :=
    length_jdwpProcessList_lt (by omega)
  exact counted_of_lt (by omega)

lemma drop_msg (hmin : 4 < bufferlen) (hmax : bufferlen < 16 ^ 4) :
    (jdwpProcessListMsg bufferlen procs).drop 4 = jdwpProcessList (bufferlen - 4) procs := by
  have hlen : (jdwpProcessList (bufferlen - 4) procs).length < bufferlen - 4 :=
    length_jdwpProcessList_lt (by omega)
  have hhex := @length_hex4 (jdwpProcessList (bufferlen - 4) procs).length (by omega)
  rw [jdwpProcessListMsg, List.take_of_length_le hhex.le, List.drop_left' hhex]

/-- The messages agree and are complete for exactly the lists whose lines take up less than 1020
bytes. -/
theorem agree_iff (procs : List JdwpProcess) : Agree procs ↔ (lines procs).length < 1020 := by
  constructor
  · rintro ⟨hsame, hcomplete, -⟩
    rw [← hcomplete, ← hsame, updatedMessage, drop_msg (by decide) (by decide)]
    exact length_jdwpProcessList_lt (by decide)
  · intro hlen
    have hupdated : jdwpProcessList (1024 - 4) procs = lines procs :=
      jdwpProcessList_of_fits hlen
    have hready : jdwpProcessList (maxPayload - 4) procs = lines procs :=
      jdwpProcessList_of_fits (hlen.trans (show 1020 < maxPayload - 4 by decide))
    refine ⟨?_, ?_, counted_msg (by decide) (by decide), counted_msg (by decide) (by decide)⟩
    · rw [updatedMessage, readyMessage, jdwpProcessListMsg, jdwpProcessListMsg, hupdated, hready]
    · rw [readyMessage, drop_msg (by decide) (by decide), hready]

/-- So many processes that have made themselves known, with pids from 1000. -/
def crowd (n : ℕ) : List JdwpProcess :=
  (List.range n).map fun i => { addr := i, pid := Int.ofNat (1000 + i), socket := 10 + i }

/-- With 204 processes a tracker that has just joined is told of one more than the others. -/
theorem not_agree_crowd : ¬Agree (crowd 204) ∧
    updatedMessage (crowd 204) ≠ readyMessage (crowd 204) := by
  have hne : updatedMessage (crowd 204) ≠ readyMessage (crowd 204) := by decide +kernel
  exact ⟨fun h => hne h.same, hne⟩

end Adbd.TrackerMessages
