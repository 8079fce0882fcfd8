import Mathlib.Data.List.TakeWhile
import Adbd.Model.KeyFile
import Adbd.Properties.Base64Decode

/-!
# The keys in a key file

A line of a key file holds a key if its first field is the base64 text of one.  `read_keys` does
not see lines but what `fgets` makes of them: pieces of at most 4095 bytes, each as far as its
first NUL.  Every piece is treated like a line, so what stands behind the 4095th byte of a line
can become a key of its own, however far behind the first field it is.

`Loads` is what loading a file should achieve, after each line.  It does if and only if every line
is `Harmless` (`loads_iff`): of its chunks of 4095 bytes, each up to its first NUL, one spells the
key of the line, and none spells anything else.  A line that is no longer than a chunk and has no
NUL in its first field is harmless, whatever it spells.
-/

namespace Adbd.KeyLines

open Bytes Base64Decode

/-! ## What a text spells -/

/-- The first field of the text is the base64 text of the key `b`, with any white space. -/
structure KeyText (text b : List UInt8) : Prop where
  encoded : squeeze (firstField text) = base64.encode b
  size : b.length = sizeofKey
  len : leValue (b.take 4) = rsaNumWords

section Spelled

variable {text b b' buf : List UInt8}

/-- What the decoder makes of a key. -/
lemma count_of_keyText (h : KeyText text b) :
    ∃ rest, b64PtonCount (firstField text) (List.replicate (sizeofKey + 4) 0) =
      .ok (some sizeofKey, b ++ rest) := by
  obtain ⟨rest, hrun⟩ := @b64PtonCount_encode b (firstField text)
    (List.replicate (sizeofKey + 4) 0) h.encoded (by rw [h.size, List.length_replicate]; omega)
  exact ⟨rest, by rw [hrun, h.size]⟩

lemma keyText_unique (h : KeyText text b) (h' : KeyText text b') : b = b' := by
  obtain ⟨rest, hrun⟩ := count_of_keyText h
  obtain ⟨rest', hrun'⟩ := count_of_keyText h'
  have heq : b ++ rest = b' ++ rest' := congrArg Prod.snd (Except.ok.inj (hrun.symm.trans hrun'))
  exact List.append_inj_left heq (h.size.trans h'.size.symm)

open Classical in
/-- The key a text spells, if it spells one. -/
noncomputable def spelled (text : List UInt8) : Option (List UInt8) :=
  if h : ∃ b, KeyText text b then some h.choose else none

lemma spelled_eq_some : spelled text = some b ↔ KeyText text b := by
  unfold spelled
  split
  case isTrue h =>
    rw [Option.some.injEq]
    exact ⟨fun heq => heq ▸ h.choose_spec, fun hb => keyText_unique h.choose_spec hb⟩
  case isFalse h => exact ⟨nofun, fun hb => absurd ⟨b, hb⟩ h⟩

lemma spelled_eq_none : spelled text = none ↔ ∀ b, ¬ KeyText text b := by
  rw [Option.eq_none_iff_forall_ne_some]
  exact forall_congr' fun b => not_congr spelled_eq_some

/-- A count of `sizeofKey` bytes is one of the text of as many bytes. -/
lemma encoded_of_asInt {c : Option ℕ} {t : Target} (hc : asInt c = sizeofKey)
    (hcount : b64PtonCount text (List.replicate (sizeofKey + 4) 0) = .ok (c, t)) :
    squeeze text = base64.encode (t.take sizeofKey) ∧ (t.take sizeofKey).length = sizeofKey := by
  obtain ⟨r, t', hrun, hlen⟩ :=
    @loop_room text 0 0 (List.replicate (sizeofKey + 4) 0) (.inl rfl)
  obtain ⟨rfl, rfl⟩ : r = c ∧ t' = t := by simpa [b64PtonCount] using hrun.symm.trans hcount
  rw [List.length_replicate] at hlen
  cases r with
  | none => exact absurd hc (by decide)
  | some n =>
    obtain ⟨hn, hsrc⟩ := squeeze_of_b64PtonCount hcount
    have hsize : sizeofKey < 600 := by decide
    rw [List.length_replicate] at hn
    rw [asInt_of_lt (by omega)] at hc
    obtain rfl : n = sizeofKey := Int.ofNat.inj hc
    exact ⟨hsrc, by rw [List.length_take, hlen]; omega⟩

/-- What a buffer spells, which ends at its first NUL. -/
noncomputable def bufferKey (buf : List UInt8) : Option (List UInt8) :=
  spelled (buf.takeWhile (· ≠ 0))

/-- A round finds the key that the buffer spells. -/
lemma decodeKey_eq (buf : List UInt8) : decodeKey buf = some (bufferKey buf) := by
  rw [bufferKey]
  generalize htext : buf.takeWhile (· ≠ 0) = text
  obtain ⟨c, t, hcount, -⟩ :=
    @loop_room (firstField text) 0 0 (List.replicate (sizeofKey + 4) 0) (.inl rfl)
  have hret : b64Pton (firstField text) (List.replicate (sizeofKey + 4) 0) = .ok (asInt c, t) := by
    rw [b64Pton, b64PtonCount, hcount]
    rfl
  rw [decodeKey, htext, hret]
  by_cases hkey : ∃ b, KeyText text b
  · obtain ⟨b, hb⟩ := hkey
    obtain ⟨rest, hrun⟩ := count_of_keyText hb
    obtain ⟨rfl, rfl⟩ : c = some sizeofKey ∧ t = b ++ rest := by
      simpa [b64PtonCount] using hcount.symm.trans hrun
    have hint : asInt (some sizeofKey) = sizeofKey := by decide
    have htake : (b ++ rest).take sizeofKey = b := List.take_left' hb.size
    simp only [hint, ne_eq, not_true, if_false, htake, hb.len, spelled_eq_some.mpr hb]
  · have hnone : spelled text = none := spelled_eq_none.mpr fun b hb => hkey ⟨b, hb⟩
    simp only [hnone]
    split
    case isTrue => rfl
    case isFalse hsize =>
      obtain ⟨hsrc, hlen⟩ := encoded_of_asInt (not_not.mp hsize) hcount
      split
      case isTrue => rfl
      case isFalse hword => exact absurd ⟨_, hsrc, hlen, not_not.mp hword⟩ hkey

end Spelled

/-! ## The list -/

/-- A list of the keys `keys`. -/
def Holds (K : KeyList) (keys : List (List UInt8)) : Prop :=
  ∃ l, Ring.Represents K.links l ∧ (∀ a ∈ l, a < K.nextAddr) ∧ l.map K.mem = keys

section List

variable {K : KeyList} {keys : List (List UInt8)} {key : List UInt8}

lemma holds_empty : Holds {} [] := ⟨[], Ring.represents_empty, nofun, rfl⟩

lemma holds_unique {keys' : List (List UInt8)} (h : Holds K keys) (h' : Holds K keys') :
    keys = keys' := by
  obtain ⟨l, hring, -, rfl⟩ := h
  obtain ⟨l', hring', -, rfl⟩ := h'
  rw [Ring.segment_unique hring.ring hring'.ring]

lemma addTail_holds (h : Holds K keys) :
    ∃ K', K.addTail key = some K' ∧ Holds K' (keys ++ [key]) := by
  obtain ⟨l, hring, hfresh, rfl⟩ := h
  have hnew : K.nextAddr ∉ l := fun hmem => absurd (hfresh _ hmem) (Nat.lt_irrefl _)
  obtain ⟨links, happend, hring'⟩ := Ring.represents_append hring hnew
  refine ⟨_, by rw [KeyList.addTail, happend]; rfl, l ++ [K.nextAddr], hring', ?_, ?_⟩
  · intro a ha
    rcases List.mem_append.mp ha with ha | ha
    · exact Nat.lt_succ_of_lt (hfresh a ha)
    · rw [List.mem_singleton.mp ha]
      exact Nat.lt_succ_self _
  · have hold : l.map (Function.update K.mem K.nextAddr key) = l.map K.mem :=
      List.map_congr_left fun a ha =>
        Function.update_of_ne (fun heq : a = K.nextAddr => hnew (heq ▸ ha)) _ _
    simp only [List.map_append, List.map_singleton, Function.update_self, hold]

/-- A round adds the key that its buffer spells. -/
lemma readKey_holds (h : Holds K keys) (buf : List UInt8) :
    ∃ K', readKey buf K = some K' ∧
      Holds K' (keys ++ (bufferKey buf).toList) := by
  rw [readKey, decodeKey_eq]
  cases bufferKey buf with
  | none => exact ⟨K, rfl, by simpa using h⟩
  | some key => exact addTail_holds h

end List

/-! ## Cutting a file -/

/-- What the calls of `fgets` put into the buffer, in at most `n` rounds. -/
def buffers : ℕ → List UInt8 → List (List UInt8)
  | 0, _ => []
  | n + 1, file =>
    if file = [] then [] else (fgets keyBufRoom file).1 :: buffers n (fgets keyBufRoom file).2

/-- The pieces a text is cut into. -/
def pieces (file : List UInt8) : List (List UInt8) := buffers (file.length + 1) file

/-- The lines of a text, each with the newline that ends it. -/
def lines : List UInt8 → List (List UInt8)
  | [] => []
  | c :: cs =>
    if c = 0x0a then [c] :: lines cs
    else
      match lines cs with
      | [] => [[c]]
      | l :: ls => (c :: l) :: ls

/-- A text after which a new line begins. -/
def Ended (text : List UInt8) : Prop := text = [] ∨ text.getLast? = some 0x0a

section Cutting

variable {n : ℕ} {file text rest l : List UInt8} {ls : List (List UInt8)}

lemma fgets_append (n : ℕ) (file : List UInt8) : (fgets n file).1 ++ (fgets n file).2 = file := by
  induction n generalizing file with
  | zero => rfl
  | succ n ih =>
    cases file with
    | nil => rfl
    | cons c file =>
      rw [fgets]
      split
      · rfl
      · exact congrArg (c :: ·) (ih file)

/-- Something is read. -/
lemma length_fgets (h : file ≠ []) :
    (fgets keyBufRoom file).2.length < file.length := by
  have hroom : keyBufRoom = 4094 + 1 := rfl
  cases file with
  | nil => exact absurd rfl h
  | cons c file =>
    have happ := congrArg List.length (fgets_append 4094 file)
    rw [List.length_append] at happ
    rw [hroom, fgets]
    split
    · exact Nat.lt_succ_self _
    · simp only [List.length_cons]
      omega

/-- What follows the end of a line is not read with it. -/
lemma fgets_of_ended (h : text.getLast? = some 0x0a) :
    fgets n (text ++ rest) = ((fgets n text).1, (fgets n text).2 ++ rest) ∧
      Ended (fgets n text).2 := by
  induction n generalizing text with
  | zero => exact ⟨rfl, .inr h⟩
  | succ n ih =>
    cases text with
    | nil => simp at h
    | cons c text =>
      rw [List.cons_append, fgets, fgets]
      by_cases hc : c = 0x0a
      · rw [if_pos hc, if_pos hc]
        refine ⟨rfl, ?_⟩
        cases text with
        | nil => exact .inl rfl
        | cons d text => exact .inr (by rwa [List.getLast?_cons_cons] at h)
      · rw [if_neg hc, if_neg hc]
        cases text with
        | nil => exact absurd (by simpa using h) hc
        | cons d text =>
          rw [List.getLast?_cons_cons] at h
          obtain ⟨happ, hend⟩ := ih h
          exact ⟨by rw [happ], hend⟩

lemma buffers_eq_pieces (h : file.length < n) : buffers n file = pieces file := by
  rw [pieces]
  generalize hm : file.length + 1 = m
  have hlt : file.length < m := by omega
  clear hm
  induction n generalizing m file with
  | zero => omega
  | succ n ih =>
    cases m with
    | zero => omega
    | succ m =>
      rw [buffers, buffers]
      by_cases hf : file = []
      · rw [if_pos hf, if_pos hf]
      · have hless := length_fgets hf
        rw [if_neg hf, if_neg hf, ih (by omega) m (by omega)]

lemma pieces_nil : pieces [] = [] := rfl

lemma pieces_eq (h : file ≠ []) :
    pieces file = (fgets keyBufRoom file).1 :: pieces (fgets keyBufRoom file).2 := by
  rw [pieces, buffers, if_neg h, buffers_eq_pieces (length_fgets h)]

/-- A new line begins a new piece. -/
lemma pieces_append (h : Ended text) : pieces (text ++ rest) = pieces text ++ pieces rest := by
  induction hlen : text.length using Nat.strongRecOn generalizing text with
  | ind k ih =>
    subst hlen
    by_cases ht : text = []
    · rw [ht, List.nil_append, pieces_nil, List.nil_append]
    · obtain ⟨happ, hend⟩ := @fgets_of_ended keyBufRoom text rest (h.resolve_left ht)
      rw [pieces_eq (List.append_ne_nil_of_left_ne_nil ht _), happ, pieces_eq ht,
        ih _ (length_fgets ht) hend rfl, List.cons_append]

/-! ### Lines -/

lemma flatten_lines (file : List UInt8) : (lines file).flatten = file := by
  induction file with
  | nil => rfl
  | cons c cs ih =>
    rw [lines]
    split
    · rw [List.flatten_cons, ih]
      rfl
    · split
      case h_1 h =>
        rw [h] at ih
        rw [← ih]
        rfl
      case h_2 l ls h =>
        rw [h] at ih
        rw [← ih]
        rfl

/-- A line goes on as far as a newline and no further. -/
structure IsLine (l : List UInt8) : Prop where
  ne_nil : l ≠ []
  body : 0x0a ∉ l.dropLast

lemma isLine_of_mem (h : l ∈ lines file) : IsLine l := by
  induction file generalizing l with
  | nil => exact absurd h List.not_mem_nil
  | cons c cs ih =>
    rw [lines] at h
    split at h
    case isTrue =>
      rcases List.mem_cons.mp h with rfl | h
      · exact ⟨List.cons_ne_nil _ _, by simp⟩
      · exact ih h
    case isFalse hc =>
      split at h
      case h_1 =>
        rw [List.mem_singleton.mp h]
        exact ⟨List.cons_ne_nil _ _, by simp⟩
      case h_2 l' ls heq =>
        rcases List.mem_cons.mp h with rfl | h
        · obtain ⟨hne, hbody⟩ := ih (heq ▸ List.mem_cons_self ..)
          refine ⟨List.cons_ne_nil _ _, ?_⟩
          rw [List.dropLast_cons_of_ne_nil hne, List.mem_cons, not_or]
          exact ⟨Ne.symm hc, hbody⟩
        · exact ih (heq ▸ List.mem_cons_of_mem _ h)

/-- Every line but the last is ended. -/
lemma ended_of_mem_dropLast (h : l ∈ (lines file).dropLast) : Ended l := by
  induction file generalizing l with
  | nil => exact absurd h List.not_mem_nil
  | cons c cs ih =>
    rw [lines] at h
    split at h
    case isTrue hc =>
      cases hls : lines cs with
      | nil => simp [hls] at h
      | cons l' ls =>
        rw [List.dropLast_cons_of_ne_nil (by simp [hls])] at h
        rcases List.mem_cons.mp h with rfl | h
        · exact .inr (by rw [hc]; rfl)
        · exact ih h
    case isFalse =>
      split at h
      case h_1 => simp at h
      case h_2 l' ls heq =>
        cases ls with
        | nil => simp at h
        | cons l'' ls =>
          rw [List.dropLast_cons_of_ne_nil (List.cons_ne_nil _ _)] at h
          rw [heq, List.dropLast_cons_of_ne_nil (List.cons_ne_nil _ _)] at ih
          rcases List.mem_cons.mp h with rfl | h
          · -- the character goes in front of an ended line
            have hl' : l' ≠ [] := (@isLine_of_mem cs l' (heq ▸ List.mem_cons_self ..)).ne_nil
            obtain ⟨d, l', rfl⟩ := List.exists_cons_of_ne_nil hl'
            refine .inr ?_
            rw [List.getLast?_cons_cons]
            exact (ih (List.mem_cons_self ..)).resolve_left hl'
          · exact ih (List.mem_cons_of_mem _ h)

/-- Lines are cut one by one. -/
lemma pieces_flatten (h : ∀ l ∈ ls.dropLast, Ended l) : pieces ls.flatten = ls.flatMap pieces := by
  induction ls with
  | nil => rfl
  | cons l ls ih =>
    cases ls with
    | nil => simp
    | cons l' ls =>
      rw [List.dropLast_cons_of_ne_nil (List.cons_ne_nil _ _)] at h
      rw [List.flatten_cons, pieces_append (h l (List.mem_cons_self ..)),
        ih fun l hl => h l (List.mem_cons_of_mem _ hl), ← List.flatMap_cons]

/-- A line that fits into the buffer is read at once. -/
lemma fgets_line (h : 0x0a ∉ text.dropLast) (hlen : text.length ≤ n) :
    fgets n text = (text, []) := by
  induction n generalizing text with
  | zero => rw [List.length_eq_zero_iff.mp (Nat.le_zero.mp hlen), fgets]
  | succ n ih =>
    cases text with
    | nil => rfl
    | cons c text =>
      cases text with
      | nil => cases n <;> simp [fgets]
      | cons d text =>
        rw [List.dropLast_cons_of_ne_nil (List.cons_ne_nil _ _), List.mem_cons, not_or] at h
        rw [fgets, if_neg (Ne.symm h.1), ih h.2 (Nat.le_of_succ_le_succ hlen)]

/-- A full buffer of a longer line. -/
lemma fgets_full {pre : List UInt8} (h : 0x0a ∉ pre) :
    fgets pre.length (pre ++ rest) = (pre, rest) := by
  induction pre with
  | nil => rfl
  | cons c pre ih =>
    rw [List.mem_cons, not_or] at h
    rw [List.length_cons, List.cons_append, fgets, if_neg (Ne.symm h.1), ih h.2]

/-- A line is cut by its length alone. -/
lemma fgets_cut (h : 0x0a ∉ text.dropLast) : fgets n text = (text.take n, text.drop n) := by
  rcases Nat.le_total text.length n with hlen | hlen
  · rw [fgets_line h hlen, List.take_of_length_le hlen, List.drop_of_length_le hlen]
  · rcases Nat.eq_or_lt_of_le hlen with heq | hlt
    · rw [fgets_line h heq.ge, List.take_of_length_le heq.ge, List.drop_of_length_le heq.ge]
    · have hpre : 0x0a ∉ text.take n := by
        intro hmem
        apply h
        rw [List.dropLast_eq_take]
        exact List.take_subset_take_left text (by omega) hmem
      have hfull := @fgets_full (text.drop n) (text.take n) hpre
      rwa [List.length_take_of_le hlen, List.take_append_drop] at hfull

/-- A text without a newline is one line when it is ended. -/
lemma lines_ended (h : 0x0a ∉ text) : lines (text ++ [0x0a]) = [text ++ [0x0a]] := by
  induction text with
  | nil => rfl
  | cons c text ih =>
    rw [List.mem_cons, not_or] at h
    rw [List.cons_append, lines, if_neg (Ne.symm h.1), ih h.2]

/-- A text without a newline is one line. -/
lemma lines_eq_singleton (hne : text ≠ []) (h : 0x0a ∉ text) : lines text = [text] := by
  induction text with
  | nil => exact absurd rfl hne
  | cons c text ih =>
    rw [List.mem_cons, not_or] at h
    rw [lines, if_neg (Ne.symm h.1)]
    cases text with
    | nil => rfl
    | cons d text => rw [ih (List.cons_ne_nil _ _) h.2]

end Cutting

/-! ## Chunks -/

/-- The bytes of a line from a multiple of 4095 on, 4095 of them if there are as many. -/
def chunk (line : List UInt8) (i : ℕ) : List UInt8 := (line.drop (keyBufRoom * i)).take keyBufRoom

/-- The text that a chunk shows: it ends at the first NUL. -/
def shown (line : List UInt8) (i : ℕ) : List UInt8 := (chunk line i).takeWhile (· ≠ 0)

/-- Cutting the line into chunks makes no difference to what it spells. -/
structure Harmless (line : List UInt8) : Prop where
  /-- A chunk spells what the line spells. -/
  own : ∀ i b, KeyText (shown line i) b → KeyText line b
  /-- No two chunks spell a key. -/
  once : ∀ i j b b', KeyText (shown line i) b → KeyText (shown line j) b' → i = j
  /-- The key of the line is whole in one of them. -/
  whole : ∀ b, KeyText line b → ∃ i, KeyText (shown line i) b

/-- The keys that the pieces of a text spell. -/
noncomputable def pieceKeys (text : List UInt8) : List (List UInt8) :=
  (pieces text).filterMap bufferKey

section Chunks

variable {line text b : List UInt8} {i k : ℕ}

lemma chunk_succ (line : List UInt8) (i : ℕ) :
    chunk line (i + 1) = chunk (line.drop keyBufRoom) i := by
  rw [chunk, chunk, List.drop_drop, Nat.mul_succ, Nat.add_comm]

/-- What `fgets` makes of a line are its chunks. -/
lemma pieces_line (h : 0x0a ∉ line.dropLast) :
    ∃ k, pieces line = (List.range k).map (chunk line) ∧ ∀ i, k ≤ i → chunk line i = [] := by
  induction hlen : line.length using Nat.strongRecOn generalizing line with
  | ind n ih =>
    subst hlen
    by_cases hne : line = []
    · refine ⟨0, by rw [hne]; rfl, fun i _ => ?_⟩
      rw [hne, chunk, List.drop_nil, List.take_nil]
    · have hcut : fgets keyBufRoom line = (line.take keyBufRoom, line.drop keyBufRoom) :=
        fgets_cut h
      have hrest : 0x0a ∉ (line.drop keyBufRoom).dropLast := by
        intro hmem
        by_cases hnil : line.drop keyBufRoom = []
        · rw [hnil] at hmem
          exact absurd hmem List.not_mem_nil
        · rw [← List.take_append_drop keyBufRoom line, List.dropLast_append_of_ne_nil hnil] at h
          exact h (List.mem_append_right _ hmem)
      have hless := length_fgets hne
      rw [hcut] at hless
      obtain ⟨k, hk, hend⟩ := ih _ hless hrest rfl
      refine ⟨k + 1, ?_, ?_⟩
      · rw [pieces_eq hne, hcut, hk, List.range_succ_eq_map, List.map_cons, List.map_map]
        congr 1
        exact List.map_congr_left fun i _ => (chunk_succ line i).symm
      · intro i hi
        obtain ⟨j, rfl⟩ : ∃ j, i = j + 1 := ⟨i - 1, by omega⟩
        rw [chunk_succ]
        exact hend j (by omega)

/-- Nothing is spelled by nothing. -/
lemma not_keyText_nil (hnil : firstField text = []) : ¬KeyText text b := by
  intro h
  have hempty := h.encoded
  rw [hnil] at hempty
  rcases b with _ | ⟨a, _ | ⟨a', _ | ⟨a'', b⟩⟩⟩
  · exact absurd h.size (by decide)
  · simp [squeeze, Base64.Alphabet.encode] at hempty
  · simp [squeeze, Base64.Alphabet.encode] at hempty
  · simp [squeeze, Base64.Alphabet.encode] at hempty

/-- A function on the numbers below `k` has at most one value, which is `o`. -/
lemma filterMap_range_eq {α : Type} {f : ℕ → Option α} {o : Option α} :
    (List.range k).filterMap f = o.toList ↔
      (∀ i < k, ∀ b, f i = some b → o = some b) ∧
        (∀ i < k, ∀ j < k, ∀ b b', f i = some b → f j = some b' → i = j) ∧
          ∀ b, o = some b → ∃ i < k, f i = some b := by
  induction k generalizing o with
  | zero => cases o <;> simp
  | succ k ih =>
    rw [List.range_succ, List.filterMap_append]
    cases hk : f k with
    | none =>
      have hlt : ∀ i < k + 1, ∀ b, f i = some b → i < k := by
        intro i hi b hb
        refine Nat.lt_of_le_of_ne (Nat.le_of_lt_succ hi) ?_
        rintro rfl
        cases hk.symm.trans hb
      simp only [List.filterMap_cons, hk, List.filterMap_nil, List.append_nil]
      rw [ih]
      constructor
      · rintro ⟨hown, honce, hwhole⟩
        refine ⟨fun i hi b hb => hown i (hlt i hi b hb) b hb, ?_, fun b hb => ?_⟩
        · intro i hi j hj b b' hb hb'
          exact honce i (hlt i hi b hb) j (hlt j hj b' hb') b b' hb hb'
        · obtain ⟨i, hi, hb⟩ := hwhole b hb
          exact ⟨i, Nat.lt_succ_of_lt hi, hb⟩
      · rintro ⟨hown, honce, hwhole⟩
        refine ⟨fun i hi => hown i (Nat.lt_succ_of_lt hi), ?_, fun b hb => ?_⟩
        · intro i hi j hj
          exact honce i (Nat.lt_succ_of_lt hi) j (Nat.lt_succ_of_lt hj)
        · obtain ⟨i, hi, hb⟩ := hwhole b hb
          exact ⟨i, hlt i hi b hb, hb⟩
    | some b =>
      simp only [List.filterMap_cons, hk, List.filterMap_nil]
      constructor
      · intro heq
        obtain ⟨rfl, hnone⟩ : o = some b ∧ (List.range k).filterMap f = [] := by
          cases o with
          | none => simp at heq
          | some c =>
            have hlen := congrArg List.length heq
            rw [List.length_append, List.length_singleton, Option.toList_some,
              List.length_singleton] at hlen
            have hnil : (List.range k).filterMap f = [] := by
              rw [← List.length_eq_zero_iff]
              omega
            rw [hnil] at heq
            simp only [List.nil_append, Option.toList_some, List.cons.injEq] at heq
            exact ⟨by rw [heq.1], hnil⟩
        have hfree : ∀ i < k + 1, ∀ c, f i = some c → i = k := by
          intro i hi c hc
          by_contra hne
          have hnot := List.filterMap_eq_nil_iff.mp hnone i (List.mem_range.mpr (by omega))
          cases hnot.symm.trans hc
        refine ⟨?_, ?_, fun c hc => ⟨k, Nat.lt_succ_self k, hk.trans hc⟩⟩
        · intro i hi c hc
          rw [hfree i hi c hc] at hc
          exact hk.symm.trans hc
        · intro i hi j hj c c' hc hc'
          rw [hfree i hi c hc, hfree j hj c' hc']
      · rintro ⟨hown, honce, -⟩
        have hnone : (List.range k).filterMap f = [] := by
          refine List.filterMap_eq_nil_iff.mpr fun i hi => Option.eq_none_iff_forall_ne_some.mpr ?_
          intro c hc
          have hlt := List.mem_range.mp hi
          have heq := honce i (by omega) k (by omega) c b hc hk
          omega
        rw [hnone, hown k (by omega) b hk]
        rfl

/-- A line is harmless exactly if its pieces are loaded as if they were the line. -/
lemma harmless_iff (h : 0x0a ∉ line.dropLast) :
    Harmless line ↔ pieceKeys line = (spelled line).toList := by
  obtain ⟨k, hpieces, hend⟩ := pieces_line h
  have hbelow : ∀ i b, KeyText (shown line i) b → i < k := by
    intro i b hb
    by_contra hge
    refine not_keyText_nil ?_ hb
    rw [shown, hend i (Nat.le_of_not_lt hge)]
    rfl
  rw [pieceKeys, hpieces, List.filterMap_map]
  change _ ↔ (List.range k).filterMap (fun i => spelled (shown line i)) = _
  rw [filterMap_range_eq]
  simp only [spelled_eq_some]
  constructor
  · rintro ⟨hown, honce, hwhole⟩
    refine ⟨fun i _ => hown i, fun i _ j _ => honce i j, fun b hb => ?_⟩
    obtain ⟨i, hi⟩ := hwhole b hb
    exact ⟨i, hbelow i b hi, hi⟩
  · rintro ⟨hown, honce, hwhole⟩
    refine ⟨fun i b hb => hown i (hbelow i b hb) b hb, ?_, fun b hb => ?_⟩
    · intro i j b b' hb hb'
      exact honce i (hbelow i b hb) j (hbelow j b' hb') b b' hb hb'
    · obtain ⟨i, -, hi⟩ := hwhole b hb
      exact ⟨i, hi⟩

end Chunks

/-! ## Loading -/

/-- After each line of the file, the keys that the lines so far spell have been added to a list
of the keys `keys`. -/
def Loads (file : List UInt8) (K : KeyList) (keys : List (List UInt8)) : Prop :=
  ∀ before after, lines file = before ++ after →
    ∃ K', readKeys (some before.flatten) [] K = some K' ∧
      Holds K' (keys ++ before.filterMap spelled)

section Loading

variable {K : KeyList} {keys : List (List UInt8)} {file line : List UInt8}
  {before after : List (List UInt8)} {n : ℕ}

/-- Every piece is treated like a line. -/
lemma readKeysLoop_holds (h : Holds K keys) (n : ℕ) (file : List UInt8) :
    ∃ K', readKeysLoop n file [] K = some K' ∧
      Holds K' (keys ++ (buffers n file).filterMap bufferKey) := by
  induction n generalizing K keys file with
  | zero => exact ⟨K, rfl, by simpa [buffers] using h⟩
  | succ n ih =>
    rw [readKeysLoop, buffers]
    by_cases hf : file = []
    · rw [if_pos hf, if_pos hf]
      exact ⟨K, rfl, by simpa using h⟩
    · rw [if_neg hf, if_neg hf, if_neg (by simp)]
      obtain ⟨K₁, hread, hholds⟩ := readKey_holds h (fgets keyBufRoom file).1
      obtain ⟨K₂, hloop, hholds₂⟩ := ih hholds (fgets keyBufRoom file).2
      refine ⟨K₂, by rw [hread]; exact hloop, ?_⟩
      rw [List.append_assoc] at hholds₂
      rw [List.filterMap_cons]
      cases hkey : bufferKey (fgets keyBufRoom file).1 <;> simpa [hkey] using hholds₂

lemma readKeys_holds (h : Holds K keys) (file : List UInt8) :
    ∃ K', readKeys (some file) [] K = some K' ∧ Holds K' (keys ++ pieceKeys file) :=
  readKeysLoop_holds h _ file

/-- The keys of a file are those of the pieces of its lines. -/
lemma pieceKeys_lines (h : lines file = before ++ after) :
    pieceKeys before.flatten = before.flatMap pieceKeys := by
  have hended : ∀ l ∈ before.dropLast, Ended l := by
    intro l hl
    apply @ended_of_mem_dropLast file l
    rw [h]
    by_cases hafter : after = []
    · rwa [hafter, List.append_nil]
    · rw [List.dropLast_append_of_ne_nil hafter]
      exact List.mem_append_left _ (List.dropLast_subset _ hl)
  rw [pieceKeys, pieces_flatten hended, List.filterMap_flatMap]
  rfl

/-- Loading works if and only if the keys of all pieces so far are those of all lines so far. -/
lemma loads_iff_prefixes (h : Holds K keys) : Loads file K keys ↔
    ∀ before after, lines file = before ++ after →
      before.flatMap pieceKeys = before.filterMap spelled := by
  refine forall_congr' fun before => forall_congr' fun after => forall_congr' fun hlines => ?_
  obtain ⟨K', hread, hholds⟩ := readKeys_holds h before.flatten
  rw [pieceKeys_lines hlines] at hholds
  constructor
  · rintro ⟨K'', hread', hholds'⟩
    obtain rfl : K' = K'' := Option.some.inj (hread.symm.trans hread')
    exact List.append_cancel_left (holds_unique hholds hholds')
  · intro heq
    exact ⟨K', hread, heq ▸ hholds⟩

/-- What a text spells depends on its first field only. -/
lemma spelled_congr {text text' : List UInt8} (h : firstField text = firstField text') :
    spelled text = spelled text' :=
  Option.ext fun b => by
    rw [spelled_eq_some, spelled_eq_some]
    exact ⟨fun hk => ⟨h ▸ hk.encoded, hk.size, hk.len⟩, fun hk => ⟨h ▸ hk.encoded, hk.size, hk.len⟩⟩

/-- A NUL behind the first field does not cut it. -/
lemma firstField_takeWhile (h : 0 ∉ firstField line) :
    firstField (line.takeWhile (· ≠ 0)) = firstField line := by
  induction line with
  | nil => rfl
  | cons c line ih =>
    by_cases hc : c ≠ 0x20 ∧ c ≠ 0x09
    · rw [firstField, List.takeWhile_cons_of_pos (by simpa using hc), List.mem_cons, not_or] at h
      rw [List.takeWhile_cons_of_pos (by simpa using Ne.symm h.1), firstField, firstField,
        List.takeWhile_cons_of_pos (by simpa using hc),
        List.takeWhile_cons_of_pos (by simpa using hc)]
      exact congrArg (c :: ·) (ih h.2)
    · obtain rfl | rfl : c = 0x20 ∨ c = 0x09 := by
        by_contra hno
        exact hc (not_or.mp hno)
      · rfl
      · rfl

/-- A line that fits into the buffer and has no NUL in its first field is harmless. -/
lemma harmless_of_short (hline : line ∈ lines file) (hlen : line.length ≤ keyBufRoom)
    (h0 : 0 ∉ firstField line) : Harmless line := by
  obtain ⟨hne, hbody⟩ := isLine_of_mem hline
  rw [harmless_iff hbody, pieceKeys, pieces_eq hne, fgets_line hbody hlen, pieces_nil,
    List.filterMap_cons, bufferKey, spelled_congr (firstField_takeWhile h0)]
  cases spelled line <;> rfl

/-- Harmless lines add what they spell. -/
lemma flatMap_pieceKeys {ls : List (List UInt8)}
    (h : ∀ line ∈ ls, pieceKeys line = (spelled line).toList) :
    ls.flatMap pieceKeys = ls.filterMap spelled := by
  induction ls with
  | nil => rfl
  | cons line ls ih =>
    rw [List.flatMap_cons, h line (List.mem_cons_self ..),
      ih fun l hl => h l (List.mem_cons_of_mem _ hl), List.filterMap_cons]
    cases spelled line <;> rfl

end Loading

/-! ## A key -/

/-- A key: its `len`, and zeros. -/
def someKey : List UInt8 := leBytes 4 rsaNumWords ++ List.replicate (sizeofKey - 4) 0

/-- The text of the key, a blank and the name of a host. -/
def keyLine : List UInt8 := base64.encode someKey ++ str " host" ++ [0x0a]

lemma firstField_someKey : firstField (base64.encode someKey) = base64.encode someKey := by
  refine List.takeWhile_eq_self_iff.mpr fun c hc => ?_
  have hspace := spaceless_encode someKey c hc
  simp only [decide_eq_true_eq]
  exact ⟨fun h => hspace (h ▸ rfl), fun h => hspace (h ▸ rfl)⟩

lemma keyText_someKey : KeyText (base64.encode someKey) someKey where
  encoded := by rw [firstField_someKey, squeeze_encode]
  size := by decide +kernel
  len := by decide +kernel

lemma firstField_keyLine : firstField keyLine = base64.encode someKey := by
  have hself := firstField_someKey
  rw [firstField, List.takeWhile_eq_self_iff] at hself
  rw [keyLine, List.append_assoc, firstField, List.takeWhile_append_of_pos hself]
  exact List.append_nil _

lemma lines_keyLine : lines keyLine = [keyLine] := by
  have hbody : 0x0a ∉ base64.encode someKey ++ str " host" := by
    intro hmem
    rcases List.mem_append.mp hmem with hmem | hmem
    · exact spaceless_encode someKey _ hmem rfl
    · exact absurd hmem (by decide)
  exact lines_ended hbody

/-- Every line adds the key it spells and nothing else if and only if every line is harmless: one of
its chunks spells the key of the line, if it has one, and no other chunk spells a key. -/
theorem loads_iff {K : KeyList} {keys : List (List UInt8)} (h : Holds K keys)
    (file : List UInt8) : Loads file K keys ↔ ∀ line ∈ lines file, Harmless line := by
  rw [loads_iff_prefixes h]
  constructor
  · intro hall line hline
    obtain ⟨before, after, hsplit⟩ := List.append_of_mem hline
    have hbefore := hall before (line :: after) hsplit
    have hwith := hall (before ++ [line]) after (by rw [hsplit, List.append_assoc]; rfl)
    rw [List.flatMap_append, List.filterMap_append, hbefore] at hwith
    have hcancel := List.append_cancel_left hwith
    rw [List.flatMap_singleton] at hcancel
    rw [harmless_iff (isLine_of_mem hline).body, hcancel]
    cases hsp : spelled line <;> simp [hsp]
  · intro hall before after hsplit
    apply flatMap_pieceKeys
    intro line hmem
    have hline : line ∈ lines file := hsplit ▸ List.mem_append_left _ hmem
    exact (harmless_iff (isLine_of_mem hline).body).mp (hall line hline)

/-- The key in a line of its own, with the name of a host behind it. -/
theorem loads_iff_keyLine : ∃ K', readKeys (some keyLine) [] {} = some K' ∧ Holds K' [someKey] := by
  have hharmless : ∀ line ∈ lines keyLine, Harmless line := by
    intro line hline
    refine harmless_of_short hline ?_ ?_
    · rw [lines_keyLine, List.mem_singleton] at hline
      rw [hline]
      decide +kernel
    · rw [lines_keyLine, List.mem_singleton] at hline
      rw [hline, firstField_keyLine]
      decide +kernel
  have hspelled : spelled keyLine = some someKey := by
    rw [spelled_congr (firstField_keyLine.trans firstField_someKey.symm)]
    exact spelled_eq_some.mpr keyText_someKey
  have hloads := (loads_iff holds_empty keyLine).mpr hharmless
  obtain ⟨K', hread, hholds⟩ := hloads [keyLine] [] lines_keyLine
  rw [List.flatten_singleton] at hread
  simp only [List.filterMap_cons, hspelled, List.filterMap_nil, List.nil_append] at hholds
  exact ⟨K', hread, hholds⟩

/-- A line whose first field is empty, with the text of a key far behind it. -/
def lateKeyLine : List UInt8 := List.replicate keyBufRoom 0x20 ++ base64.encode someKey

/-- A line with an empty first field spells nothing. -/
lemma spelled_blank (text : List UInt8) : spelled (0x20 :: text) = none :=
  spelled_eq_none.mpr fun _ => not_keyText_nil rfl

lemma pieceKeys_lateKeyLine : pieceKeys lateKeyLine = [someKey] := by
  have hblank : 0x0a ∉ List.replicate keyBufRoom (0x20 : UInt8) := fun h =>
    absurd (List.eq_of_mem_replicate h) (by decide)
  have hkey : 0x0a ∉ (base64.encode someKey).dropLast := fun h =>
    spaceless_encode someKey _ (List.dropLast_subset _ h) rfl
  have hfirst := @fgets_full (base64.encode someKey) _ hblank
  rw [List.length_replicate] at hfirst
  have hbuf : bufferKey (List.replicate keyBufRoom 0x20) = none := spelled_blank _
  have hbuf' : bufferKey (base64.encode someKey) = some someKey := by
    rw [bufferKey, spelled_congr (firstField_takeWhile (by
      rw [firstField_someKey]
      decide +kernel))]
    exact spelled_eq_some.mpr keyText_someKey
  rw [pieceKeys, lateKeyLine, pieces_eq (by decide +kernel), hfirst, pieces_eq (by decide +kernel),
    fgets_line hkey (by decide +kernel), pieces_nil]
  simp only [List.filterMap_cons, List.filterMap_nil, hbuf, hbuf']

/-- The key is loaded although it is not in the first field. -/
theorem not_loads_lateKeyLine : ¬ Loads lateKeyLine {} [] := by
  have hblank : 0x0a ∉ List.replicate keyBufRoom (0x20 : UInt8) := fun h =>
    absurd (List.eq_of_mem_replicate h) (by decide)
  have hlines : lines lateKeyLine = [lateKeyLine] :=
    lines_eq_singleton (by decide +kernel) fun h => (List.mem_append.mp h).elim hblank
      fun h => spaceless_encode someKey _ h rfl
  have hspelled : spelled lateKeyLine = none := spelled_blank _
  rw [loads_iff_prefixes holds_empty]
  intro hall
  have heq := hall [lateKeyLine] [] hlines
  rw [List.flatMap_singleton, pieceKeys_lateKeyLine, List.filterMap_cons, hspelled] at heq
  exact absurd heq (List.cons_ne_nil _ _)

end Adbd.KeyLines
