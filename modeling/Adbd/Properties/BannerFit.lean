import Adbd.Model.Banner

/-!
# The banner in its buffer

`fill_connect_data` is given `sizeof(cp->data)` bytes for a text that comes from the command
line.  A text that leaves room for its terminator is printed whole, nothing else of the buffer
changes, and the value returned counts the text with its terminator (`fillConnectData_room`).
A longer one is not: `remaining` wraps around, the next `snprintf` writes behind the buffer, and
even where none is left to do so, the value returned exceeds the buffer
(`bannerFits_iff`).
-/

namespace Adbd

open Transition

namespace Banner

/-! ## One `snprintf` -/

/-- The text `T` stands at the start of the buffer `data`. -/
structure Progress (T data : List UInt8) (P : Printer) : Prop where
  buf : P.buf.toNat = T.length
  remaining : P.remaining.toNat + T.length = data.length
  size : P.data.length = data.length
  front : P.data.take T.length = T
  back : P.data.drop (T.length + 1) = data.drop (T.length + 1)

lemma printedLength_toNat {text : List UInt8} (h : text.length < 2 ^ 31) :
    (printedLength text).toNat = text.length := by
  rw [printedLength, if_pos h, UInt64.toNat_ofNat']
  omega

lemma printedLength_toNat_huge {text : List UInt8} (h : ¬text.length < 2 ^ 31) :
    (printedLength text).toNat = 2 ^ 64 - 1 := by
  rw [printedLength, if_neg h]
  rfl

/-- A text with room for its terminator is printed behind what is there. -/
lemma print_room {T data : List UInt8} {P : Printer} (hP : Progress T data P) (text : List UInt8)
    (htext : text.length < 2 ^ 31) (hroom : T.length + text.length + 1 ≤ data.length)
    (hsize : data.length < 2 ^ 63) :
    ∃ P', P.print text = .ok P' ∧ Progress (T ++ text) data P' ∧
      P'.data = T ++ text ++ [0] ++ data.drop (T.length + text.length + 1) := by
  have hlen := printedLength_toNat htext
  have hrem := hP.remaining
  have hbytes : printed P.remaining text = text ++ [0] := by
    have hne : P.remaining ≠ 0 := by
      intro h
      rw [h] at hrem
      have hzero : (0 : UInt64).toNat = 0 := rfl
      omega
    rw [printed, if_neg hne, List.take_of_length_le (by omega)]
  have hend : T.length + (text ++ [0]).length = T.length + text.length + 1 := by
    rw [List.length_append, List.length_singleton, Nat.add_assoc]
  have hback : P.data.drop (T.length + text.length + 1) =
      data.drop (T.length + text.length + 1) := by
    have hsum : T.length + text.length + 1 = T.length + 1 + text.length := by omega
    rw [hsum, ← List.drop_drop, hP.back, List.drop_drop]
  have hprint : P.print text = .ok
      { buf := P.buf + printedLength text, remaining := P.remaining - printedLength text,
        data := T ++ (text ++ [0]) ++ data.drop (T.length + text.length + 1) } := by
    rw [Printer.print, hbytes, hP.buf, hP.size, hP.front, hend, hback]
    exact if_pos (.inr hroom)
  refine ⟨_, hprint, ⟨?_, ?_, ?_, ?_, ?_⟩, ?_⟩
  · rw [UInt64.toNat_add, hP.buf, hlen, List.length_append]
    omega
  · rw [UInt64.toNat_sub, hlen, List.length_append]
    omega
  · simp only [List.length_append, List.length_singleton, List.length_drop]
    omega
  · rw [← List.append_assoc, List.append_assoc (T ++ text), List.take_left]
  · have hfront : (T ++ text).length + 1 = (T ++ (text ++ [0])).length := by
      rw [List.length_append, List.length_append, hend]
    rw [hfront, List.drop_left, List.length_append, hend]
  · rw [← List.append_assoc]

/-! ## The four of them -/

/-- The texts of the four `snprintf` calls. -/
def pieces (c : Config) : List (List UInt8) :=
  [c.banner ++ str "::", propText c 0, propText c 1, propText c 2]

lemma length_bannerText (c : Config) :
    (bannerText c).length = ((c.banner ++ str "::").length + (propText c 0).length +
      (propText c 1).length + (propText c 2).length) := by
  simp only [bannerText, List.length_append]

lemma start (data : List UInt8) (hsize : data.length < 2 ^ 63) :
    Progress [] data { buf := 0, remaining := UInt64.ofNat data.length, data := data } := by
  refine ⟨rfl, ?_, rfl, rfl, rfl⟩
  rw [UInt64.toNat_ofNat', List.length_nil]
  omega

/-- A text that fits is printed whole, and nothing behind its terminator changes. -/
theorem fillConnectData_room {c : Config} {data : List UInt8} (hsize : data.length < 2 ^ 63)
    (hpieces : ∀ text ∈ pieces c, text.length < 2 ^ 31)
    (hroom : (bannerText c).length + 1 ≤ data.length) :
    ∃ n : UInt64, n.toNat = (bannerText c).length + 1 ∧ fillConnectData c data =
      .ok (bannerText c ++ [0] ++ data.drop ((bannerText c).length + 1), n) := by
  have hlen := length_bannerText c
  obtain ⟨P₁, h₁, hP₁, -⟩ := print_room (start data hsize) (c.banner ++ str "::")
    (hpieces _ (by simp [pieces])) (by rw [List.length_nil]; omega) hsize
  rw [List.nil_append] at hP₁
  obtain ⟨P₂, h₂, hP₂, -⟩ := print_room hP₁ (propText c 0)
    (hpieces _ (by simp [pieces])) (by omega) hsize
  obtain ⟨P₃, h₃, hP₃, -⟩ := print_room hP₂ (propText c 1)
    (hpieces _ (by simp [pieces])) (by rw [List.length_append]; omega) hsize
  obtain ⟨P₄, h₄, hP₄, hdata⟩ := print_room hP₃ (propText c 2)
    (hpieces _ (by simp [pieces])) (by rw [List.length_append, List.length_append]; omega) hsize
  have hrem := hP₄.remaining
  have htext : c.banner ++ str "::" ++ propText c 0 ++ propText c 1 ++ propText c 2 =
    bannerText c := rfl
  rw [htext] at hrem hdata
  rw [← List.length_append, htext] at hdata
  refine ⟨UInt64.ofNat data.length - P₄.remaining + 1, ?_, ?_⟩
  · have hone : (1 : UInt64).toNat = 1 := rfl
    rw [UInt64.toNat_add, UInt64.toNat_sub, UInt64.toNat_ofNat', hone]
    omega
  · refine bind_eq_ok_iff.mpr ⟨P₁, h₁, bind_eq_ok_iff.mpr ⟨P₂, h₂, bind_eq_ok_iff.mpr
      ⟨P₃, h₃, bind_eq_ok_iff.mpr ⟨P₄, h₄, ?_⟩⟩⟩⟩
    rw [hdata]
    rfl

/-- The value returned counts what the four calls wanted to write, up to wrapping around. -/
lemma fillConnectData_returned {c : Config} {data data' : List UInt8} {n : UInt64}
    (h : fillConnectData c data = .ok (data', n)) :
    n = printedLength (c.banner ++ str "::") + printedLength (propText c 0) +
      printedLength (propText c 1) + printedLength (propText c 2) + 1 := by
  have hprint : ∀ {text : List UInt8} {P P' : Printer}, P.print text = .ok P' →
      P'.remaining = P.remaining - printedLength text := by
    intro text P P' h
    rw [Printer.print] at h
    split at h
    · cases h
      rfl
    · cases h
  obtain ⟨P₁, h₁, h⟩ := bind_eq_ok_iff.mp h
  obtain ⟨P₂, h₂, h⟩ := bind_eq_ok_iff.mp h
  obtain ⟨P₃, h₃, h⟩ := bind_eq_ok_iff.mp h
  obtain ⟨P₄, h₄, h⟩ := bind_eq_ok_iff.mp h
  cases h
  rw [hprint h₄, hprint h₃, hprint h₂, hprint h₁]
  grind

/-! ## What fits -/

/-- `fill_connect_data` writes only inside of the buffer, and returns the length of the text with
its terminator, which is at most the size of the buffer. -/
def BannerFits (c : Config) (data : List UInt8) : Prop :=
  ∃ data' n, fillConnectData c data = .ok (data', n) ∧ n.toNat ≤ data.length ∧
    n.toNat = (bannerText c).length + 1

/-- ... and the message `send_connect` makes of the value returned passes `check_header`. -/
def ConnectFits (c : Config) (data : List UInt8) : Prop :=
  ∃ data' n, fillConnectData c data = .ok (data', n) ∧ n.toNat ≤ data.length ∧
    n.toNat = (bannerText c).length + 1 ∧
    (connectMessage n).dataLength.toNat ≤ maxPayload ∧ checkHeader (connectMessage n) = true

/-- A call whose text is no `int` long returns `-1`, and the sum of the four shows it. -/
lemma pieces_short {c : Config} {data : List UInt8} (hsize : data.length < 2 ^ 63)
    (h : BannerFits c data) : ∀ text ∈ pieces c, text.length < 2 ^ 31 := by
  obtain ⟨data', n, hfill, hle, hn⟩ := h
  have hlen := length_bannerText c
  have hsum := congrArg UInt64.toNat (fillConnectData_returned hfill)
  have hone : (1 : UInt64).toNat = 1 := rfl
  rw [UInt64.toNat_add, UInt64.toNat_add, UInt64.toNat_add, UInt64.toNat_add, hone] at hsum
  have hcases : ∀ text : List UInt8, text.length < 2 ^ 31 ∧
      (printedLength text).toNat = text.length ∨
      2 ^ 31 ≤ text.length ∧ (printedLength text).toNat = 2 ^ 64 - 1 := by
    intro text
    by_cases ht : text.length < 2 ^ 31
    · exact .inl ⟨ht, printedLength_toNat ht⟩
    · exact .inr ⟨Nat.le_of_not_lt ht, printedLength_toNat_huge ht⟩
  have hall : (c.banner ++ str "::").length < 2 ^ 31 ∧ (propText c 0).length < 2 ^ 31 ∧
      (propText c 1).length < 2 ^ 31 ∧ (propText c 2).length < 2 ^ 31 := by
    rcases hcases (c.banner ++ str "::") with ⟨h₁, e₁⟩ | ⟨h₁, e₁⟩ <;>
    rcases hcases (propText c 0) with ⟨h₂, e₂⟩ | ⟨h₂, e₂⟩ <;>
    rcases hcases (propText c 1) with ⟨h₃, e₃⟩ | ⟨h₃, e₃⟩ <;>
    rcases hcases (propText c 2) with ⟨h₄, e₄⟩ | ⟨h₄, e₄⟩ <;>
    rw [e₁, e₂, e₃, e₄] at hsum <;>
    omega
  intro text ht
  simp only [pieces, List.mem_cons, List.not_mem_nil, or_false] at ht
  rcases ht with rfl | rfl | rfl | rfl
  · exact hall.1
  · exact hall.2.1
  · exact hall.2.2.1
  · exact hall.2.2.2

/-- A text no longer than a packet has no piece that is longer than an `int` can say. -/
lemma pieces_short_of_room {c : Config} (h : (bannerText c).length + 1 ≤ maxPayload) :
    ∀ text ∈ pieces c, text.length < 2 ^ 31 := by
  have hlen := length_bannerText c
  have hmax : maxPayload = 4096 := rfl
  intro text ht
  simp only [pieces, List.mem_cons, List.not_mem_nil, or_false] at ht
  rcases ht with rfl | rfl | rfl | rfl <;> omega

/-- The header of the message is in order as long as the value returned is the length of a
packet at most. -/
lemma checkHeader_connectMessage {n : UInt64} (h : n.toNat ≤ maxPayload) :
    (connectMessage n).dataLength.toNat ≤ maxPayload ∧ checkHeader (connectMessage n) = true := by
  have hmax : maxPayload = 4096 := rfl
  have hlen : (connectMessage n).dataLength.toNat ≤ maxPayload := by
    rw [connectMessage, UInt32.toNat_ofNat']
    omega
  refine ⟨hlen, ?_⟩
  rw [checkHeader, Bool.and_eq_true, decide_eq_true_eq, decide_eq_true_eq]
  exact ⟨rfl, hlen⟩

/-- The banner fits its buffer exactly if the text leaves room for its terminator (and each of
the four printed texts is short enough for `snprintf` to report its length); the connection
packet is in order exactly if the text leaves room for its terminator in a packet. -/
theorem bannerFits_iff (c : Config) :
    (∀ data : List UInt8, data.length < 2 ^ 63 → (BannerFits c data ↔
      (bannerText c).length + 1 ≤ data.length ∧ ∀ text ∈ pieces c, text.length < 2 ^ 31)) ∧
    ∀ data : List UInt8, data.length = maxPayload →
      (ConnectFits c data ↔ (bannerText c).length + 1 ≤ maxPayload) := by
  have hmax : maxPayload = 4096 := rfl
  constructor
  · intro data hsize
    constructor
    · rintro hfits
      refine ⟨?_, pieces_short hsize hfits⟩
      obtain ⟨_, n, _, hle, hn⟩ := hfits
      exact hn ▸ hle
    · rintro ⟨hroom, hpieces⟩
      obtain ⟨n, hn, hfill⟩ := fillConnectData_room hsize hpieces hroom
      exact ⟨_, n, hfill, hn ▸ hroom, hn⟩
  · intro data hsize
    constructor
    · rintro ⟨_, n, _, hle, hn, -⟩
      rw [← hn, ← hsize]
      exact hle
    · intro hroom
      obtain ⟨n, hn, hfill⟩ := fillConnectData_room (by omega : data.length < 2 ^ 63)
        (pieces_short_of_room hroom) (by omega)
      exact ⟨_, n, hfill, by omega, hn, checkHeader_connectMessage (by omega)⟩

/-- The default banner fits a buffer of 100 bytes. -/
theorem bannerFits_default : BannerFits {} (List.replicate 100 0) :=
  ((bannerFits_iff {}).1 (List.replicate 100 0) (by decide)).mpr (by decide)

lemma not_connectFits_of_long {c : Config} {data : List UInt8} (hsize : data.length = maxPayload)
    (h : maxPayload ≤ c.banner.length) : ¬ConnectFits c data := by
  rintro ⟨_, n, -, hle, hn, -⟩
  have hlen := length_bannerText c
  rw [List.length_append] at hlen
  omega

/-- A banner of 4096 letters does not fit the packet. -/
theorem not_connectFits_long :
    ¬ConnectFits { banner := List.replicate maxPayload 0x61 } (List.replicate maxPayload 0) :=
  not_connectFits_of_long List.length_replicate (Nat.le_of_eq List.length_replicate.symm)

end Banner

end Adbd
