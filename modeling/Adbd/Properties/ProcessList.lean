import Adbd.Model.ProcessList
import Adbd.Properties.TrackerMessages

/-!
# What the process list leaves in its buffer

`snprintf` returns the length a line would have had, cuts the line at the end of the buffer and
writes its NUL there, so after a line that does not fit the buffer is full.  The loop tells by
the length that it was cut, and the NUL that is stored last goes where the line began.

`formatLoop_text` follows the cursor: what is in front of it is always the text
`Daemon.jdwpProcessList` describes, `jdwpProcessList_longest` says which processes that text is
about, and the theorem puts the two together.
-/

namespace Adbd.ProcessList

open Memory

/-- The processes that have made themselves known. -/
def known (procs : List JdwpProcess) : List JdwpProcess := procs.filter fun proc => 0 ≤ proc.pid

/-- One line for each of the processes. -/
def linesOf (procs : List JdwpProcess) : List UInt8 :=
  procs.flatMap fun proc => Daemon.pidLine proc.pid

/-- `pre` is as many of the processes, from the first one on, as have lines with less than `room`
bytes together. -/
structure Longest (room : ℕ) (pre procs : List JdwpProcess) : Prop where
  front : pre <+: procs
  fits : (linesOf pre).length < room
  longest : ∀ pre', pre' <+: procs → (linesOf pre').length < room → pre' <+: pre

/-- What `jdwp_process_list` makes of a memory `m` when it returns `k`: the text and its NUL, and
no change in front of the buffer and behind it. -/
structure Formatted {n : ℕ} (procs : List JdwpProcess) (buffer bufferlen k : ℕ)
    (m m' : Vector UInt8 n) : Prop where
  short : k < bufferlen
  terminated : m'.toList[buffer + k]? = some 0
  text : ∃ pre, Longest bufferlen pre (known procs) ∧
    (m'.toList.drop buffer).take k = linesOf pre
  before : m'.toList.take buffer = m.toList.take buffer
  behind : m'.toList.drop (buffer + bufferlen) = m.toList.drop (buffer + bufferlen)

/-! ## The text -/

section Text

variable {proc : JdwpProcess} {procs pre : List JdwpProcess} {room : ℕ}

lemma length_linesOf_cons : (linesOf (proc :: procs)).length =
    (Daemon.pidLine proc.pid).length + (linesOf procs).length := by
  rw [linesOf, List.flatMap_cons, List.length_append, ← linesOf]

/-- The line of the first process does not fit. -/
lemma Longest.stop (hroom : 0 < room) (h : room ≤ (Daemon.pidLine proc.pid).length) :
    Longest room [] (proc :: procs) := by
  refine ⟨List.nil_prefix, hroom, ?_⟩
  intro pre' hpre' hlen
  cases pre' with
  | nil => exact List.nil_prefix
  | cons q pre' =>
    obtain ⟨rfl, -⟩ := List.cons_prefix_cons.mp hpre'
    rw [length_linesOf_cons] at hlen
    omega

/-- The line of the first process fits. -/
lemma Longest.cons (hline : (Daemon.pidLine proc.pid).length < room)
    (h : Longest (room - (Daemon.pidLine proc.pid).length) pre procs) :
    Longest room (proc :: pre) (proc :: procs) := by
  refine ⟨List.cons_prefix_cons.mpr ⟨rfl, h.front⟩, ?_, ?_⟩
  · have hfits := h.fits
    rw [length_linesOf_cons]
    omega
  · intro pre' hpre' hlen
    cases pre' with
    | nil => exact List.nil_prefix
    | cons q pre' =>
      obtain ⟨rfl, hrest⟩ := List.cons_prefix_cons.mp hpre'
      rw [length_linesOf_cons] at hlen
      exact List.cons_prefix_cons.mpr ⟨rfl, h.longest pre' hrest (by omega)⟩

/-- The text is the lines of the longest prefix that fits. -/
lemma jdwpProcessList_longest (hroom : 0 < room) (procs : List JdwpProcess) :
    ∃ pre, Longest room pre (known procs) ∧ Daemon.jdwpProcessList room procs = linesOf pre := by
  induction procs generalizing room with
  | nil => exact ⟨[], ⟨List.prefix_refl _, hroom, fun _ h _ => h⟩, rfl⟩
  | cons proc procs ih =>
    rw [Daemon.jdwpProcessList]
    split
    case isTrue hneg =>
      rw [known, List.filter_cons_of_neg (by simpa using hneg)]
      exact ih hroom
    case isFalse hknown =>
      rw [known, List.filter_cons_of_pos (by simpa using hknown)]
      split
      case isTrue hlong => exact ⟨[], .stop hroom hlong, rfl⟩
      case isFalse hline =>
        obtain ⟨pre, hpre, htext⟩ := @ih (room - (Daemon.pidLine proc.pid).length) (by omega)
        refine ⟨proc :: pre, hpre.cons (by omega), ?_⟩
        rw [htext, linesOf, linesOf, List.flatMap_cons]

end Text

/-! ## The buffer -/

section Buffer

variable {n p size bufferEnd : ℕ} {text : List UInt8}

/-- What `snprintf` does where there is room for its NUL: a text that fits stands in front of the
cursor it asks for, and one that does not changes nothing in front of its own. -/
lemma snprintf_eq (hsize : 0 < size) (hn : p + size ≤ n) (m : Vector UInt8 n) :
    ∃ m', snprintf p size text m = .ok (text.length, m') ∧
      m'.toList.take p = m.toList.take p ∧
      (text.length < size → m'.toList.take (p + text.length) = m.toList.take p ++ text) ∧
      m'.toList.drop (p + size) = m.toList.drop (p + size) := by
  have hstored : (text.take (size - 1) ++ [0]).length ≤ size := by
    rw [List.length_append, List.length_take, List.length_singleton]
    omega
  obtain ⟨m', hcopy, hlist⟩ :=
    copy_eq (show p + (text.take (size - 1) ++ [0]).length ≤ n by omega) m
  have hp : p ≤ m.toList.length := by
    rw [Vector.length_toList]
    omega
  refine ⟨m', ?_, ?_, ?_, ?_⟩
  · rw [snprintf, if_neg (Nat.ne_of_gt hsize), hcopy]
    rfl
  · rw [hlist, List.append_assoc, List.take_left']
    rw [List.length_take, Nat.min_eq_left hp]
  · intro hfits
    rw [hlist, List.take_of_length_le (by omega : text.length ≤ size - 1), ← List.append_assoc,
      List.append_assoc, List.take_left' (length_splice hp)]
  · rw [hlist, drop_splice hp (by omega)]

/-- Wherever the loop starts, what it leaves in front of its cursor is the text it was to add. -/
lemma formatLoop_text (procs : List JdwpProcess) (hp : p < bufferEnd) (hn : bufferEnd ≤ n)
    (m : Vector UInt8 n) :
    ∃ m', formatLoop bufferEnd procs p m =
        .ok (p + (Daemon.jdwpProcessList (bufferEnd - p) procs).length, m') ∧
      m'.toList.take (p + (Daemon.jdwpProcessList (bufferEnd - p) procs).length) =
        m.toList.take p ++ Daemon.jdwpProcessList (bufferEnd - p) procs ∧
      m'.toList.drop bufferEnd = m.toList.drop bufferEnd := by
  induction procs generalizing p m with
  | nil => exact ⟨m, rfl, (List.append_nil _).symm, rfl⟩
  | cons proc procs ih =>
    rw [formatLoop, Daemon.jdwpProcessList]
    by_cases hneg : proc.pid < 0
    · rw [if_pos hneg, if_pos hneg]
      exact ih hp m
    rw [if_neg hneg, if_neg hneg]
    obtain ⟨m₁, hprint, hfront, hline, hbehind⟩ := @snprintf_eq n p (bufferEnd - p)
      (Daemon.pidLine proc.pid) (by omega) (by omega) m
    rw [Nat.add_sub_of_le hp.le] at hbehind
    rw [hprint]
    by_cases hlong : bufferEnd - p ≤ (Daemon.pidLine proc.pid).length
    · -- the line has been cut; it stays behind the cursor
      refine ⟨m₁, ?_, ?_, hbehind⟩
      · rw [if_pos hlong]
        exact if_pos (by omega)
      · rw [if_pos hlong]
        exact hfront.trans (List.append_nil _).symm
    · obtain ⟨m', hloop, htext, hbehind'⟩ :=
        ih (show p + (Daemon.pidLine proc.pid).length < bufferEnd by omega) m₁
      rw [← Nat.sub_sub] at hloop htext
      refine ⟨m', ?_, ?_, hbehind'.trans hbehind⟩
      · rw [if_neg hlong, List.length_append, ← Nat.add_assoc]
        exact (if_neg (by omega)).trans hloop
      · rw [if_neg hlong, List.length_append, ← Nat.add_assoc, htext, hline (by omega),
          List.append_assoc]

end Buffer

/-! ## The main result -/

variable {n buffer bufferlen : ℕ}

/-- `jdwp_process_list` leaves the text of the process list in its buffer. -/
lemma jdwpProcessList_text (hpos : 1 ≤ bufferlen) (hn : buffer + bufferlen ≤ n)
    (procs : List JdwpProcess) (m : Vector UInt8 n) :
    ∃ m', jdwpProcessList procs buffer bufferlen m =
        .ok ((Daemon.jdwpProcessList bufferlen procs).length, m') ∧
      m'.toList.take (buffer + (Daemon.jdwpProcessList bufferlen procs).length) =
        m.toList.take buffer ++ Daemon.jdwpProcessList bufferlen procs ∧
      m'.toList[buffer + (Daemon.jdwpProcessList bufferlen procs).length]? = some 0 ∧
      m'.toList.drop (buffer + bufferlen) = m.toList.drop (buffer + bufferlen) := by
  obtain ⟨m₁, hloop, htext, hbehind⟩ :=
    formatLoop_text procs (show buffer < buffer + bufferlen by omega) hn m
  rw [Nat.add_sub_cancel_left] at hloop htext
  have hshort : (Daemon.jdwpProcessList bufferlen procs).length < bufferlen :=
    TrackerMessages.length_jdwpProcessList_lt hpos
  generalize Daemon.jdwpProcessList bufferlen procs = text at *
  obtain ⟨m', hstore, hlist⟩ := store_eq (show buffer + text.length < n by omega) 0 m₁
  refine ⟨m', ?_, ?_, ?_, ?_⟩
  · rw [jdwpProcessList, hloop]
    change (do
      let m ← store (buffer + text.length) 0 m₁
      pure (buffer + text.length - buffer, m)) = _
    rw [hstore, Nat.add_sub_cancel_left]
    rfl
  · rw [hlist, List.take_set_of_le (Nat.le_refl _), htext]
  · rw [hlist, List.getElem?_set_self]
    rw [Vector.length_toList]
    omega
  · rw [hlist, List.drop_set_of_lt (by omega), hbehind]

/-- **Formatting the process list.**  For any processes and any buffer of at least one byte, in a
memory that may end with it, `jdwp_process_list` returns after stores inside the buffer only, and
leaves there the lines of the longest prefix of the known processes that has less than `bufferlen`
bytes, and a NUL behind them. -/
theorem jdwpProcessList_formatted (hpos : 1 ≤ bufferlen) (hn : buffer + bufferlen ≤ n)
    (procs : List JdwpProcess) (m : Vector UInt8 n) :
    ∃ k m', jdwpProcessList procs buffer bufferlen m = .ok (k, m') ∧
      Formatted procs buffer bufferlen k m m' := by
  obtain ⟨m', hlist, htext, hnul, hbehind⟩ := jdwpProcessList_text hpos hn procs m
  obtain ⟨pre, hpre, hlines⟩ := jdwpProcessList_longest hpos procs
  have hshort : (Daemon.jdwpProcessList bufferlen procs).length < bufferlen :=
    TrackerMessages.length_jdwpProcessList_lt hpos
  have hbefore : (m.toList.take buffer).length = buffer := by
    rw [List.length_take, Vector.length_toList]
    omega
  refine ⟨_, m', hlist, hshort, hnul, ⟨pre, hpre, ?_⟩, ?_, hbehind⟩
  · rw [List.take_drop, htext, List.drop_left' hbefore, hlines]
  · have hcut := congrArg (List.take buffer) htext
    rwa [List.take_take, Nat.min_eq_left (Nat.le_add_right ..), List.take_left' hbefore] at hcut

/-- The boundary: the text of two processes and its NUL fill eight bytes, and a third is left
out. -/
theorem jdwpProcessList_formatted_full :
    ∃ k m', jdwpProcessList
        [{ addr := 0, socket := 5, pid := 1 }, { addr := 1, socket := 6 },
          { addr := 2, socket := 7, pid := 1234 }, { addr := 3, socket := 8, pid := 9 }]
        0 8 (Vector.replicate 8 0xff) = .ok (k, m') ∧
      Formatted
        [{ addr := 0, socket := 5, pid := 1 }, { addr := 1, socket := 6 },
          { addr := 2, socket := 7, pid := 1234 }, { addr := 3, socket := 8, pid := 9 }]
        0 8 k (Vector.replicate 8 0xff) m' :=
  jdwpProcessList_formatted (by decide) (by decide) _ _

/-- One byte less, and what was written of the second line stays behind the NUL. -/
example : (jdwpProcessList
      [{ addr := 0, socket := 5, pid := 1 }, { addr := 1, socket := 6, pid := 1234 }]
      0 7 (Vector.replicate 7 0xff)).map (fun r => (r.1, r.2.toList)) =
    .ok (2, [0x31, 0x0a, 0, 0x32, 0x33, 0x34, 0]) := by
  decide +kernel

/-! ## The message -/

/-- `jdwp_process_list_msg` leaves the message in its buffer that is sent to the trackers. -/
theorem jdwpProcessListMsg_text (hmin : 4 < bufferlen) (hmax : bufferlen < 16 ^ 4)
    (hn : buffer + bufferlen ≤ n) (procs : List JdwpProcess) (m : Vector UInt8 n) :
    ∃ m', jdwpProcessListMsg procs buffer bufferlen m =
        .ok ((Daemon.jdwpProcessListMsg bufferlen procs).length, m') ∧
      m'.toList.take (buffer + (Daemon.jdwpProcessListMsg bufferlen procs).length) =
        m.toList.take buffer ++ Daemon.jdwpProcessListMsg bufferlen procs ∧
      m'.toList.drop (buffer + bufferlen) = m.toList.drop (buffer + bufferlen) := by
  obtain ⟨m₁, hlist, htext, -, hbehind⟩ := jdwpProcessList_text
    (show 1 ≤ bufferlen - 4 by omega) (show buffer + 4 + (bufferlen - 4) ≤ n by omega) procs m
  have hshort : (Daemon.jdwpProcessList (bufferlen - 4) procs).length < bufferlen - 4 :=
    TrackerMessages.length_jdwpProcessList_lt (by omega)
  rw [Daemon.jdwpProcessListMsg]
  generalize Daemon.jdwpProcessList (bufferlen - 4) procs = text at *
  have hhead : ((Daemon.hex4 text.length).take 4).length = 4 := by
    rw [List.length_take, TrackerMessages.length_hex4 (by omega)]
    rfl
  obtain ⟨m', hcopy, hcells⟩ := copy_eq
    (show buffer + ((Daemon.hex4 text.length).take 4).length ≤ n by omega) m₁
  have hb : buffer ≤ m₁.toList.length := by
    rw [Vector.length_toList]
    omega
  refine ⟨m', ?_, ?_, ?_⟩
  · rw [jdwpProcessListMsg, hlist]
    change (do
      let m ← copy buffer ((Daemon.hex4 text.length).take 4) m₁
      pure (text.length + 4, m)) = _
    rw [hcopy, List.length_append, hhead, Nat.add_comm]
    rfl
  · -- the header has taken the place of the four cells in front of the text
    have hsplit : m₁.toList.take (buffer + 4 + text.length) =
        m₁.toList.take (buffer + 4) ++ (m₁.toList.drop (buffer + 4)).take text.length :=
      List.take_add
    have hlen : (m₁.toList.take (buffer + 4)).length = (m.toList.take (buffer + 4)).length := by
      rw [List.length_take, List.length_take, Vector.length_toList, Vector.length_toList]
    obtain ⟨hfront, hrest⟩ := List.append_inj (hsplit.symm.trans htext) hlen
    have hcut := congrArg (List.take buffer) hfront
    rw [List.take_take, List.take_take, Nat.min_eq_left (Nat.le_add_right ..)] at hcut
    rw [hcells, hcut.symm, List.take_append, length_splice hb, hhead, List.length_append, hhead,
      List.take_of_length_le (by rw [length_splice hb, hhead]; omega),
      show buffer + (4 + text.length) - (buffer + 4) = text.length by omega, hrest,
      List.append_assoc]
  · rw [hcells, drop_splice hb (by omega), show buffer + bufferlen =
      buffer + 4 + (bufferlen - 4) by omega, hbehind]

/-- The theorem for two processes and a buffer of twelve bytes in the middle of twenty. -/
theorem jdwpProcessListMsg_text_two : ∃ m', jdwpProcessListMsg
      [{ addr := 0, socket := 5, pid := 7 }, { addr := 1, socket := 6, pid := 1234 }] 4 12
        (Vector.replicate 20 0xff) =
      .ok ((Daemon.jdwpProcessListMsg 12
        [{ addr := 0, socket := 5, pid := 7 }, { addr := 1, socket := 6, pid := 1234 }]).length,
        m') ∧
    m'.toList.take (4 + (Daemon.jdwpProcessListMsg 12
      [{ addr := 0, socket := 5, pid := 7 }, { addr := 1, socket := 6, pid := 1234 }]).length) =
      (Vector.replicate 20 0xff).toList.take 4 ++ Daemon.jdwpProcessListMsg 12
        [{ addr := 0, socket := 5, pid := 7 }, { addr := 1, socket := 6, pid := 1234 }] ∧
    m'.toList.drop (4 + 12) = (Vector.replicate 20 0xff).toList.drop (4 + 12) :=
  jdwpProcessListMsg_text (by decide) (by decide) (by decide) _ _

end Adbd.ProcessList
