import Mathlib.Order.Nat
import Adbd.Model.Base64

/-!
# `b64_pton` reads base64

White space makes no difference to the decoder (`loop_squeeze`), so the rest is about texts
without any.  It takes them in groups of four digits: `loop_encode` follows it through the groups
of an encoding, and `loop_sound` shows, one group at a time, that a text it accepts is the
encoding of what it has written.  No access is out of bounds, since it looks ahead only where it
has made sure of the room (`loop_room`).

What it counts are bytes of an arbitrary string and what it returns is an `int`, so from `2 ^ 31`
bytes on it returns another number.  `ReadsBase64` says what holds below that.
-/

namespace Adbd.Base64Decode

open Pton Base64.Alphabet

/-- A text without its white space. -/
def squeeze (src : List UInt8) : List UInt8 := src.filter fun c => !Daemon.isSpace c

/-! ## White space -/

section Space

variable {src : List UInt8} {ch : UInt8} {state : Fin 4} {i : ℕ} {t : Target}

lemma squeeze_cons_space (h : Daemon.isSpace ch) : squeeze (ch :: src) = squeeze src := by
  rw [squeeze, List.filter_cons_of_neg (by simp [h]), squeeze]

lemma squeeze_cons_other (h : ¬ Daemon.isSpace ch) : squeeze (ch :: src) = ch :: squeeze src := by
  rw [squeeze, List.filter_cons_of_pos (by simp [h]), squeeze]

lemma not_isSpace_of_mem_squeeze (h : ch ∈ squeeze src) : ¬ Daemon.isSpace ch := by
  simpa using (List.mem_filter.mp h).2

lemma tail_squeeze (src : List UInt8) : tail (squeeze src) i t = tail src i t := by
  have hall : (squeeze src).all Daemon.isSpace = src.all Daemon.isSpace := by
    rw [Bool.eq_iff_iff, List.all_eq_true, List.all_eq_true]
    refine ⟨fun h c hc => ?_, fun h c hc => h c (List.mem_filter.mp hc).1⟩
    by_contra hspace
    exact hspace (h c (List.mem_filter.mpr ⟨hc, by simpa using hspace⟩))
  rw [tail, hall, tail]

/-- Behind the spaces a text is empty or begins with what it begins with without any. -/
lemma dropWhile_isSpace (src : List UInt8) :
    (src.dropWhile Daemon.isSpace = [] ∧ squeeze src = []) ∨
      ∃ ch rest, src.dropWhile Daemon.isSpace = ch :: rest ∧
        squeeze src = ch :: squeeze rest := by
  induction src with
  | nil => exact .inl ⟨rfl, rfl⟩
  | cons c src ih =>
    by_cases hc : Daemon.isSpace c
    · rwa [List.dropWhile_cons_of_pos hc, squeeze_cons_space hc]
    · exact .inr ⟨c, src, List.dropWhile_cons_of_neg hc, squeeze_cons_other hc⟩

lemma padding_squeeze (src : List UInt8) (state : Fin 4) :
    padding (squeeze src) state i t = padding src state i t := by
  match state with
  | 0 => rfl
  | 1 => rfl
  | 2 =>
    rcases dropWhile_isSpace src with ⟨hdrop, hsq⟩ | ⟨ch, rest, hdrop, hsq⟩
    · simp only [padding, hdrop, hsq, List.dropWhile_nil]
    · have hch : ¬ Daemon.isSpace ch :=
        not_isSpace_of_mem_squeeze (hsq ▸ List.mem_cons_self (a := ch))
      simp only [padding, hdrop, hsq, List.dropWhile_cons_of_neg hch, tail_squeeze]
  | 3 => exact tail_squeeze src

/-- White space makes no difference. -/
lemma loop_squeeze (src : List UInt8) (state : Fin 4) (i : ℕ) (t : Target) :
    loop (squeeze src) state i t = loop src state i t := by
  induction src generalizing state i t with
  | nil => rfl
  | cons ch src ih =>
    by_cases hch : Daemon.isSpace ch
    · rw [squeeze_cons_space hch, ih, loop, if_pos hch]
    · rw [squeeze_cons_other hch, loop, loop, if_neg hch, if_neg hch, padding_squeeze]
      split
      · rfl
      · split
        · rfl
        · split <;> first | rfl | exact ih ..

end Space

/-! ## One digit

The memory is written as what is finished and what is not, so that `tarindex` is where the second
part begins. -/

section Digit

variable {pre rest : List UInt8} {x y : UInt8} {pos v₀ v₁ v₂ v₃ : ℕ}

lemma load_append : Target.load (pre ++ x :: rest) pre.length = .ok x := by
  simp [Target.load]

lemma store_append : Target.store (pre ++ x :: rest) pre.length y = .ok (pre ++ y :: rest) := by
  simp [Target.store]

lemma load_succ : Target.load (pre ++ x :: y :: rest) (pre.length + 1) = .ok y := by
  simp [Target.load]

lemma load_succ_succ {z : UInt8} :
    Target.load (pre ++ x :: y :: z :: rest) (pre.length + 2) = .ok z := by
  simp [Target.load]

lemma store_succ {z : UInt8} : Target.store (pre ++ x :: y :: rest) (pre.length + 1) z =
    .ok (pre ++ x :: z :: rest) := by
  simp [Target.store]

lemma switch_zero : switch pos 0 pre.length (pre ++ x :: rest) =
    .ok (some (1, pre.length, pre ++ UInt8.ofNat (pos <<< 2) :: rest)) := by
  rw [switch, if_neg (by simp)]
  simp only [store_append, bind, Except.bind]

lemma switch_one : switch pos 1 pre.length (pre ++ x :: y :: rest) =
    .ok (some (2, pre.length + 1,
      pre ++ (x ||| UInt8.ofNat (pos >>> 4)) :: UInt8.ofNat ((pos &&& 0x0f) <<< 4) :: rest)) := by
  rw [switch, if_neg (by simp)]
  simp only [load_append, store_append, store_succ, bind, Except.bind]

lemma switch_two : switch pos 2 pre.length (pre ++ x :: y :: rest) =
    .ok (some (3, pre.length + 1,
      pre ++ (x ||| UInt8.ofNat (pos >>> 2)) :: UInt8.ofNat ((pos &&& 0x03) <<< 6) :: rest)) := by
  rw [switch, if_neg (by simp)]
  simp only [load_append, store_append, store_succ, bind, Except.bind]

lemma switch_three : switch pos 3 pre.length (pre ++ x :: rest) =
    .ok (some (0, pre.length + 1, pre ++ (x ||| UInt8.ofNat pos) :: rest)) := by
  rw [switch, if_neg (by simp)]
  simp only [load_append, store_append, bind, Except.bind]

/-! ### Where the memory ends -/

variable {mem : List UInt8} {state : Fin 4} {i : ℕ} {t : Target}

lemma switch_zero_some (h : switch pos 0 pre.length (pre ++ mem) = .ok (some (state, i, t))) :
    ∃ x rest, mem = x :: rest ∧ state = 1 ∧ i = pre.length ∧
      t = pre ++ UInt8.ofNat (pos <<< 2) :: rest := by
  cases mem with
  | nil => simp [switch] at h
  | cons x rest =>
    rw [switch_zero] at h
    cases h
    exact ⟨x, rest, rfl, rfl, rfl, rfl⟩

lemma switch_one_some (h : switch pos 1 pre.length (pre ++ x :: mem) = .ok (some (state, i, t))) :
    ∃ y rest, mem = y :: rest ∧ state = 2 ∧ i = pre.length + 1 ∧
      t = pre ++ (x ||| UInt8.ofNat (pos >>> 4)) ::
        UInt8.ofNat ((pos &&& 0x0f) <<< 4) :: rest := by
  cases mem with
  | nil => simp [switch] at h
  | cons y rest =>
    rw [switch_one] at h
    cases h
    exact ⟨y, rest, rfl, rfl, rfl, rfl⟩

lemma switch_two_some (h : switch pos 2 (pre.length + 1) (pre ++ y :: x :: mem) =
    .ok (some (state, i, t))) :
    ∃ z rest, mem = z :: rest ∧ state = 3 ∧ i = pre.length + 2 ∧
      t = pre ++ y :: (x ||| UInt8.ofNat (pos >>> 2)) ::
        UInt8.ofNat ((pos &&& 0x03) <<< 6) :: rest := by
  cases mem with
  | nil => simp [switch] at h
  | cons z rest =>
    have heq := @switch_two (pre ++ [y]) rest x z pos
    rw [List.length_append, List.append_assoc, List.append_assoc] at heq
    cases heq.symm.trans h
    exact ⟨z, rest, rfl, rfl, rfl, rfl⟩

/-! ### Putting bits together -/

lemma or_ofNat {m n k : ℕ} (hn : n < 2 ^ k) :
    UInt8.ofNat (m <<< k) ||| UInt8.ofNat n = UInt8.ofNat (m * 2 ^ k + n) := by
  rw [← UInt8.ofNat_or, ← Nat.shiftLeft_add_eq_or_of_lt hn, Nat.shiftLeft_eq]

lemma or_byte₀ (h₁ : v₁ < 64) :
    UInt8.ofNat (v₀ <<< 2) ||| UInt8.ofNat (v₁ >>> 4) = byte₀ v₀ v₁ := by
  have hshift : v₁ >>> 4 = v₁ / 16 := Nat.shiftRight_eq_div_pow v₁ 4
  rw [hshift]
  exact or_ofNat (by omega)

lemma or_byte₁ (h₂ : v₂ < 64) :
    UInt8.ofNat ((v₁ &&& 0x0f) <<< 4) ||| UInt8.ofNat (v₂ >>> 2) = byte₁ v₁ v₂ := by
  have hand : v₁ &&& 0x0f = v₁ % 16 := Nat.and_two_pow_sub_one_eq_mod v₁ 4
  have hshift : v₂ >>> 2 = v₂ / 4 := Nat.shiftRight_eq_div_pow v₂ 2
  rw [hand, hshift]
  exact or_ofNat (by omega)

lemma or_byte₂ (h₃ : v₃ < 64) :
    UInt8.ofNat ((v₂ &&& 0x03) <<< 6) ||| UInt8.ofNat v₃ = byte₂ v₂ v₃ := by
  have hand : v₂ &&& 0x03 = v₂ % 4 := Nat.and_two_pow_sub_one_eq_mod v₂ 2
  rw [hand]
  exact or_ofNat h₃

/-- The bits of the second digit that no byte takes. -/
lemma spare₁_eq_zero : UInt8.ofNat ((v₁ &&& 0x0f) <<< 4) = 0 ↔ v₁ % 16 = 0 := by
  have hand : v₁ &&& 0x0f = v₁ % 16 := Nat.and_two_pow_sub_one_eq_mod v₁ 4
  rw [hand, ← UInt8.toNat_inj, UInt8.toNat_ofNat', Nat.shiftLeft_eq]
  simp only [UInt8.toNat_zero]
  omega

/-- The bits of the third digit that no byte takes. -/
lemma spare₂_eq_zero : UInt8.ofNat ((v₂ &&& 0x03) <<< 6) = 0 ↔ v₂ % 4 = 0 := by
  have hand : v₂ &&& 0x03 = v₂ % 4 := Nat.and_two_pow_sub_one_eq_mod v₂ 2
  rw [hand, ← UInt8.toNat_inj, UInt8.toNat_ofNat', Nat.shiftLeft_eq]
  simp only [UInt8.toNat_zero]
  omega

end Digit

/-! ## Groups of digits -/

section Group

variable {pre rest src : List UInt8} {x y z : UInt8} {v v₀ v₁ v₂ v₃ : ℕ} {state state' : Fin 4}
  {i i' n : ℕ} {t t' t₁ : Target}

lemma not_isSpace_digit (hv : v < 64) : ¬ Daemon.isSpace (base64.digit v) := by
  have h : ∀ v < 64, ¬ Daemon.isSpace (base64.digit v) := by
    decide +kernel
  exact h v hv

lemma loop_digit (hv : v < 64) (h : switch v state i t = .ok (some (state', i', t'))) :
    loop (base64.digit v :: src) state i t = loop src state' i' t' := by
  have hidx : base64Digits.idxOf? (base64.digit v) = some v := base64.idxOf?_digit hv
  have hpad : base64.digit v ≠ pad64 := base64.digit_ne_pad hv
  rw [loop, if_neg (not_isSpace_digit hv), if_neg hpad, hidx]
  simp only [h]

lemma loop_one (h₀ : v₀ < 64) :
    loop (base64.digit v₀ :: src) 0 pre.length (pre ++ x :: rest) =
      loop src 1 pre.length (pre ++ UInt8.ofNat (v₀ <<< 2) :: rest) :=
  loop_digit h₀ switch_zero

lemma loop_two (h₀ : v₀ < 64) (h₁ : v₁ < 64) :
    loop (base64.digit v₀ :: base64.digit v₁ :: src) 0 pre.length (pre ++ x :: y :: rest) =
      loop src 2 (pre.length + 1)
        (pre ++ byte₀ v₀ v₁ :: UInt8.ofNat ((v₁ &&& 0x0f) <<< 4) :: rest) := by
  rw [loop_one h₀, loop_digit h₁ switch_one, or_byte₀ h₁]

lemma loop_three (h₀ : v₀ < 64) (h₁ : v₁ < 64) (h₂ : v₂ < 64) :
    loop (base64.digit v₀ :: base64.digit v₁ :: base64.digit v₂ :: src) 0 pre.length
        (pre ++ x :: y :: z :: rest) =
      loop src 3 (pre.length + 2) (pre ++ byte₀ v₀ v₁ :: byte₁ v₁ v₂ ::
        UInt8.ofNat ((v₂ &&& 0x03) <<< 6) :: rest) := by
  rw [loop_two h₀ h₁]
  have h := @switch_two (pre ++ [byte₀ v₀ v₁]) rest (UInt8.ofNat ((v₁ &&& 0x0f) <<< 4)) z v₂
  rw [or_byte₁ h₂, List.length_append, List.append_assoc, List.append_assoc] at h
  exact loop_digit h₂ h

lemma loop_four (h₀ : v₀ < 64) (h₁ : v₁ < 64) (h₂ : v₂ < 64) (h₃ : v₃ < 64) :
    loop (base64.digit v₀ :: base64.digit v₁ :: base64.digit v₂ :: base64.digit v₃ :: src) 0
        pre.length (pre ++ x :: y :: z :: rest) =
      loop src 0 (pre ++ [byte₀ v₀ v₁, byte₁ v₁ v₂, byte₂ v₂ v₃]).length
        (pre ++ [byte₀ v₀ v₁, byte₁ v₁ v₂, byte₂ v₂ v₃] ++ rest) := by
  rw [loop_three h₀ h₁ h₂]
  have h := @switch_three (pre ++ [byte₀ v₀ v₁, byte₁ v₁ v₂]) rest
    (UInt8.ofNat ((v₂ &&& 0x03) <<< 6)) v₃
  rw [or_byte₂ h₃, List.length_append, List.append_assoc, List.append_assoc] at h
  rw [List.length_append, List.append_assoc]
  exact loop_digit h₃ h

/-! ### The end of a text -/

/-- A text without white space. -/
def Spaceless (src : List UInt8) : Prop := ∀ c ∈ src, ¬ Daemon.isSpace c

lemma spaceless_pad : Spaceless [pad64] := fun _ hc => List.mem_singleton.mp hc ▸ by decide

lemma tail_some_iff (hs : Spaceless src) : tail src i t = .ok (some n, t') ↔
    src = [] ∧ t.load i = .ok 0 ∧ n = i ∧ t' = t := by
  cases src with
  | nil =>
    rw [tail, List.all_nil, if_pos rfl]
    cases hload : t.load i with
    | error e => simp [bind, Except.bind]
    | ok x =>
      by_cases hx : x = 0
      · simp [bind, Except.bind, hx, eq_comm]
      · simp [bind, Except.bind, hx]
  | cons c src =>
    have hc : ¬ Daemon.isSpace c := hs c (List.mem_cons_self ..)
    rw [tail, List.all_cons, if_neg (by simp [hc])]
    simp

lemma padding_some_iff (hs : Spaceless src) : padding src state i t = .ok (some n, t') ↔
    (state = 2 ∧ src = [pad64] ∨ state = 3 ∧ src = []) ∧ t.load i = .ok 0 ∧ n = i ∧ t' = t := by
  match state with
  | 0 => simp [padding]
  | 1 => simp [padding]
  | 2 =>
    cases src with
    | nil => simp [padding]
    | cons c src =>
      have hc : ¬ Daemon.isSpace c := hs c (List.mem_cons_self ..)
      simp only [padding, List.dropWhile_cons_of_neg hc]
      by_cases hpad : c = pad64
      · rw [if_neg (not_not.mpr hpad),
          tail_some_iff fun c hc => hs c (List.mem_cons_of_mem _ hc)]
        simp [hpad]
      · simp [hpad]
  | 3 => simp [padding, tail_some_iff hs]

lemma loop_pad : loop (pad64 :: src) state i t = padding src state i t := by
  rw [loop, if_neg (by decide), if_pos rfl]

/-! ### Reading an encoding -/

/-- There is no white space in an encoding. -/
lemma spaceless_encode (b : List UInt8) : Spaceless (base64.encode b) := by
  have hpad : ¬ Daemon.isSpace base64.pad := by decide
  induction b using encode.induct with
  | case1 => exact List.forall_mem_nil _
  | case2 a =>
    obtain ⟨v₀, v₁, h₀, h₁, hrest, rfl⟩ := eq_pair a
    rw [encode_pair base64 h₀ h₁ hrest]
    simp only [Spaceless, List.forall_mem_cons]
    exact ⟨not_isSpace_digit h₀, not_isSpace_digit h₁, hpad, hpad, List.forall_mem_nil _⟩
  | case3 a b =>
    obtain ⟨v₀, v₁, v₂, h₀, h₁, h₂, hrest, rfl, rfl⟩ := eq_triple a b
    rw [encode_triple base64 h₀ h₁ h₂ hrest]
    simp only [Spaceless, List.forall_mem_cons]
    exact ⟨not_isSpace_digit h₀, not_isSpace_digit h₁, not_isSpace_digit h₂, hpad,
      List.forall_mem_nil _⟩
  | case4 a b c bs ih =>
    obtain ⟨v₀, v₁, v₂, v₃, h₀, h₁, h₂, h₃, rfl, rfl, rfl⟩ := eq_quad a b c
    rw [encode_quad base64 h₀ h₁ h₂ h₃]
    simp only [Spaceless, List.forall_mem_cons]
    exact ⟨not_isSpace_digit h₀, not_isSpace_digit h₁, not_isSpace_digit h₂,
      not_isSpace_digit h₃, ih⟩

lemma squeeze_encode (b : List UInt8) : squeeze (base64.encode b) = base64.encode b :=
  List.filter_eq_self.mpr fun c hc => by simpa using spaceless_encode b c hc

lemma exists_two {mem : List UInt8} (h : 1 < mem.length) : ∃ x y rest, mem = x :: y :: rest := by
  obtain ⟨x, mem, rfl⟩ := List.exists_cons_of_length_pos (Nat.zero_lt_of_lt h)
  obtain ⟨y, rest, rfl⟩ := List.exists_cons_of_length_pos (Nat.lt_of_succ_lt_succ h)
  exact ⟨x, y, rest, rfl⟩

lemma exists_three {mem : List UInt8} (h : 2 < mem.length) :
    ∃ x y z rest, mem = x :: y :: z :: rest := by
  obtain ⟨x, mem, rfl⟩ := List.exists_cons_of_length_pos (Nat.zero_lt_of_lt h)
  obtain ⟨y, z, rest, rfl⟩ := exists_two (Nat.lt_of_succ_lt_succ h)
  exact ⟨x, y, z, rest, rfl⟩

/-- With one byte to spare an encoding is read back. -/
lemma loop_encode (b mem : List UInt8) (hlen : b.length < mem.length) :
    ∃ rest, loop (base64.encode b) 0 pre.length (pre ++ mem) =
      .ok (some (pre.length + b.length), pre ++ b ++ rest) := by
  induction b using encode.induct generalizing pre mem with
  | case1 => exact ⟨mem, by simp [encode, loop]⟩
  | case2 a =>
    obtain ⟨x, y, rest, rfl⟩ := exists_two hlen
    obtain ⟨v₀, v₁, h₀, h₁, hrest, rfl⟩ := eq_pair a
    refine ⟨0 :: rest, ?_⟩
    rw [encode_pair base64 h₀ h₁ hrest, loop_two h₀ h₁]
    refine loop_pad.trans ((padding_some_iff spaceless_pad).mpr ⟨.inl ⟨rfl, rfl⟩, ?_, rfl, ?_⟩)
    · rw [load_succ, spare₁_eq_zero.mpr hrest]
    · rw [spare₁_eq_zero.mpr hrest, List.append_assoc]
      rfl
  | case3 a b =>
    obtain ⟨x, y, z, rest, rfl⟩ := exists_three hlen
    obtain ⟨v₀, v₁, v₂, h₀, h₁, h₂, hrest, rfl, rfl⟩ := eq_triple a b
    refine ⟨0 :: rest, ?_⟩
    rw [encode_triple base64 h₀ h₁ h₂ hrest, loop_three h₀ h₁ h₂]
    refine loop_pad.trans ((padding_some_iff (List.forall_mem_nil _)).mpr
      ⟨.inr ⟨rfl, rfl⟩, ?_, rfl, ?_⟩)
    · rw [load_succ_succ, spare₂_eq_zero.mpr hrest]
    · rw [spare₂_eq_zero.mpr hrest, List.append_assoc]
      rfl
  | case4 a b c bs ih =>
    have hthree : 2 < mem.length := by
      simp only [List.length_cons] at hlen
      omega
    obtain ⟨x, y, z, mem, rfl⟩ := exists_three hthree
    obtain ⟨v₀, v₁, v₂, v₃, h₀, h₁, h₂, h₃, rfl, rfl, rfl⟩ := eq_quad a b c
    rw [encode_quad base64 h₀ h₁ h₂ h₃, loop_four h₀ h₁ h₂ h₃]
    obtain ⟨rest, hrest⟩ := @ih (pre ++ [byte₀ v₀ v₁, byte₁ v₁ v₂, byte₂ v₂ v₃]) mem
      (by simpa using hlen)
    exact ⟨rest, hrest.trans (by simp; omega)⟩

/-! ### Nothing else is accepted -/

/-- A text that is accepted is at its end, at the padding, or at a digit that there is room
for. -/
lemma loop_some (hs : Spaceless src) (h : loop src state i t = .ok (some n, t')) :
    (src = [] ∧ state = 0 ∧ n = i ∧ t' = t) ∨
      (src = [pad64, pad64] ∧ state = 2 ∨ src = [pad64] ∧ state = 3) ∧
        t.load i = .ok 0 ∧ n = i ∧ t' = t ∨
      ∃ v src' state' i' t₁, v < 64 ∧ src = base64.digit v :: src' ∧
        switch v state i t = .ok (some (state', i', t₁)) ∧
        loop src' state' i' t₁ = .ok (some n, t') := by
  cases src with
  | nil =>
    rw [loop] at h
    split at h
    · simp at h
    · simp_all
  | cons c src =>
    have hc : ¬ Daemon.isSpace c := hs c (List.mem_cons_self ..)
    rw [loop, if_neg hc] at h
    split at h
    case isTrue hpad =>
      obtain ⟨hstate, hload, hn, ht⟩ :=
        (padding_some_iff fun c hc => hs c (List.mem_cons_of_mem _ hc)).mp h
      refine .inr (.inl ⟨?_, hload, hn, ht⟩)
      rcases hstate with ⟨rfl, rfl⟩ | ⟨rfl, rfl⟩
      · exact .inl ⟨by rw [hpad], rfl⟩
      · exact .inr ⟨by rw [hpad], rfl⟩
    case isFalse =>
      split at h
      · simp at h
      case h_2 v hv =>
        obtain ⟨hlt, rfl⟩ := base64.eq_digit_of_idxOf? hv
        split at h
        · simp at h
        · simp at h
        case h_3 state' i' t₁ hsw => exact .inr (.inr ⟨v, src, state', i', t₁, hlt, rfl, hsw, h⟩)

/-- An accepted text is the encoding of what has been written. -/
lemma loop_sound {mem : List UInt8} (hs : Spaceless src)
    (h : loop src 0 pre.length (pre ++ mem) = .ok (some n, t')) :
    ∃ b rest, src = base64.encode b ∧ n = pre.length + b.length ∧ t' = pre ++ b ++ rest := by
  induction hlen : src.length using Nat.strongRecOn generalizing src pre mem with
  | ind k ih =>
    subst hlen
    have hs' : ∀ {c src'}, Spaceless (c :: src') → Spaceless src' := fun h c hc =>
      h c (List.mem_cons_of_mem _ hc)
    obtain ⟨rfl, -, rfl, rfl⟩ | ⟨hstate, -⟩ | ⟨v₀, src₁, st, i₁, t₁, h₀, rfl, hsw, h₁⟩ :=
      loop_some hs h
    · exact ⟨[], mem, rfl, rfl, by rw [List.append_nil]⟩
    · simp at hstate
    obtain ⟨x, mem₁, rfl, rfl, rfl, rfl⟩ := switch_zero_some hsw
    obtain ⟨-, hstate, -⟩ | ⟨hstate, -⟩ | ⟨v₁, src₂, st, i₂, t₂, hv₁, rfl, hsw, h₂⟩ :=
      loop_some (hs' hs) h₁
    · simp at hstate
    · simp at hstate
    obtain ⟨y, mem₂, rfl, rfl, rfl, rfl⟩ := switch_one_some hsw
    rw [or_byte₀ hv₁] at h₂
    obtain ⟨-, hstate, -⟩ | ⟨hstate, hload, rfl, rfl⟩ |
      ⟨v₂, src₃, st, i₃, t₃, hv₂, rfl, hsw, h₃⟩ := loop_some (hs' (hs' hs)) h₂
    · simp at hstate
    · -- the group ends after two digits
      obtain rfl : src₂ = [pad64, pad64] := by simpa using hstate
      rw [load_succ, Except.ok.injEq, spare₁_eq_zero] at hload
      exact ⟨[byte₀ v₀ v₁], _, (encode_pair base64 h₀ hv₁ hload).symm, rfl,
        by rw [List.append_assoc]; rfl⟩
    obtain ⟨z, mem₃, rfl, rfl, rfl, rfl⟩ := switch_two_some hsw
    rw [or_byte₁ hv₂] at h₃
    obtain ⟨-, hstate, -⟩ | ⟨hstate, hload, rfl, rfl⟩ |
      ⟨v₃, src₄, st, i₄, t₄, hv₃, rfl, hsw, h₄⟩ := loop_some (hs' (hs' (hs' hs))) h₃
    · simp at hstate
    · -- the group ends after three digits
      obtain rfl : src₃ = [pad64] := by simpa using hstate
      rw [load_succ_succ, Except.ok.injEq, spare₂_eq_zero] at hload
      exact ⟨[byte₀ v₀ v₁, byte₁ v₁ v₂], _, (encode_triple base64 h₀ hv₁ hv₂ hload).symm, rfl,
        by rw [List.append_assoc]; rfl⟩
    -- the group is complete
    have hfour := @loop_four pre mem₃ src₄ x y z v₀ v₁ v₂ v₃ h₀ hv₁ hv₂ hv₃
    obtain ⟨b, rest, hb, rfl, rfl⟩ := ih src₄.length (by simp; omega)
      (hs' (hs' (hs' (hs' hs)))) (hfour.symm.trans h) rfl
    refine ⟨byte₀ v₀ v₁ :: byte₁ v₁ v₂ :: byte₂ v₂ v₃ :: b, rest, ?_, ?_, ?_⟩
    · rw [encode_quad base64 h₀ hv₁ hv₂ hv₃, ← hb]
    · simp
      omega
    · simp

end Group

/-! ## Bounds -/

section Bounds

variable {src : List UInt8} {state : Fin 4} {i : ℕ} {t : Target}

/-- Where the next byte is looked at, there has been room for it. -/
def Room (state : Fin 4) (i : ℕ) (t : Target) : Prop := state.val = 0 ∨ i < t.length

lemma load_ok (h : i < t.length) : ∃ x, t.load i = .ok x := ⟨t[i], dif_pos h⟩

lemma store_ok {x : UInt8} (h : i < t.length) : t.store i x = .ok (t.set i x) := if_pos h

lemma state_cases : ∀ state : Fin 4, state = 0 ∨ state = 1 ∨ state = 2 ∨ state = 3 := by
  decide

lemma switch_room {pos : ℕ} (h : Room state i t) : switch pos state i t = .ok none ∨
    ∃ state' i' t', switch pos state i t = .ok (some (state', i', t')) ∧ Room state' i' t' ∧
      t'.length = t.length := by
  rcases state_cases state with rfl | rfl | rfl | rfl
  · rw [switch]
    by_cases hfull : t.length ≤ i
    · exact .inl (if_pos hfull)
    · rw [if_neg hfull, store_ok (by omega)]
      exact .inr ⟨_, _, _, rfl, .inr (by simpa using hfull), List.length_set⟩
  · obtain ⟨x, hx⟩ := load_ok (h.resolve_left (by decide))
    rw [switch, hx]
    by_cases hfull : t.length ≤ i + 1
    · exact .inl (if_pos hfull)
    · rw [if_neg hfull]
      simp only [bind, Except.bind, store_ok (show i < t.length by omega)]
      rw [store_ok (by rw [List.length_set]; omega)]
      exact .inr ⟨_, _, _, rfl, .inr (by simpa using hfull), by simp⟩
  · obtain ⟨x, hx⟩ := load_ok (h.resolve_left (by decide))
    rw [switch, hx]
    by_cases hfull : t.length ≤ i + 1
    · exact .inl (if_pos hfull)
    · rw [if_neg hfull]
      simp only [bind, Except.bind, store_ok (show i < t.length by omega)]
      rw [store_ok (by rw [List.length_set]; omega)]
      exact .inr ⟨_, _, _, rfl, .inr (by simpa using hfull), by simp⟩
  · have hi : i < t.length := h.resolve_left (by decide)
    obtain ⟨x, hx⟩ := load_ok hi
    rw [switch, hx, if_neg (by omega)]
    simp only [bind, Except.bind, store_ok hi]
    exact .inr ⟨_, _, _, rfl, .inl rfl, List.length_set⟩

lemma tail_room (h : i < t.length) : ∃ r, tail src i t = .ok (r, t) := by
  obtain ⟨x, hx⟩ := load_ok h
  rw [tail, hx]
  split <;> exact ⟨_, rfl⟩

lemma padding_room (h : Room state i t) : ∃ r, padding src state i t = .ok (r, t) := by
  rcases state_cases state with rfl | rfl | rfl | rfl
  · exact ⟨_, rfl⟩
  · exact ⟨_, rfl⟩
  · rw [padding]
    split
    · exact ⟨_, rfl⟩
    · split
      · exact ⟨_, rfl⟩
      · exact tail_room (h.resolve_left (by decide))
  · exact tail_room (h.resolve_left (by decide))

/-- No access is out of bounds. -/
lemma loop_room (h : Room state i t) :
    ∃ r t', loop src state i t = .ok (r, t') ∧ t'.length = t.length := by
  induction src generalizing state i t with
  | nil => exact ⟨_, _, rfl, rfl⟩
  | cons c src ih =>
    rw [loop]
    split
    case isTrue => exact ih h
    case isFalse =>
      split
      case isTrue =>
        obtain ⟨r, hr⟩ := @padding_room src state i t h
        exact ⟨r, t, hr, rfl⟩
      case isFalse =>
        split
        case h_1 => exact ⟨_, _, rfl, rfl⟩
        case h_2 pos _ =>
          obtain hnone | ⟨state', i', t', hsome, h', hlen⟩ := @switch_room state i t pos h
          · simp only [hnone]
            exact ⟨_, _, rfl, rfl⟩
          · simp only [hsome]
            obtain ⟨r, t'', hrun, hlen'⟩ := ih h'
            exact ⟨r, t'', hrun, hlen'.trans hlen⟩

end Bounds

/-! ## The decoder -/

section Decoder

variable {b src : List UInt8} {target target' : Target} {n : ℕ}

/-- An encoding with white space in it is read back. -/
lemma b64PtonCount_encode (hsrc : squeeze src = base64.encode b)
    (hlen : b.length + 1 ≤ target.length) :
    ∃ rest, b64PtonCount src target = .ok (some b.length, b ++ rest) := by
  obtain ⟨rest, hrun⟩ := @loop_encode [] b target hlen
  refine ⟨rest, ?_⟩
  rw [b64PtonCount, ← loop_squeeze, hsrc]
  exact hrun.trans (by simp)

/-- What is accepted is the encoding of what has been written. -/
lemma squeeze_of_b64PtonCount (h : b64PtonCount src target = .ok (some n, target')) :
    n ≤ target.length ∧ squeeze src = base64.encode (target'.take n) := by
  obtain ⟨r, t, hrun, hlen⟩ := @loop_room src 0 0 target (.inl rfl)
  obtain ⟨rfl, rfl⟩ : r = some n ∧ t = target' := by
    simpa using hrun.symm.trans h
  rw [← loop_squeeze] at hrun
  obtain ⟨b, rest, hsrc, hn, rfl⟩ :=
    @loop_sound [] _ _ _ _ (fun _ => not_isSpace_of_mem_squeeze) hrun
  obtain rfl : n = b.length := by simpa using hn
  rw [List.nil_append] at hlen ⊢
  rw [List.take_left]
  exact ⟨by rw [← hlen, List.length_append]; omega, hsrc⟩

end Decoder

/-- The decoder reads base64 and nothing else, within its memory, as long as an `int` can hold
the count. -/
structure ReadsBase64 : Prop where
  encoding : ∀ b src target, b.length < 2 ^ 31 → b.length + 1 ≤ target.length →
    squeeze src = base64.encode b →
      ∃ rest, b64Pton src target = .ok ((b.length : Int), b ++ rest)
  canonical : ∀ src target r target', target.length < 2 ^ 32 →
    b64Pton src target = .ok (r, target') → 0 ≤ r →
      r.toNat ≤ target'.length ∧ squeeze src = base64.encode (target'.take r.toNat)
  inBounds : ∀ src target, ∃ r target', b64Pton src target = .ok (r, target') ∧
    target'.length = target.length

theorem readsBase64 : ReadsBase64 where
  encoding b src target hb hlen hsrc := by
    obtain ⟨rest, hrun⟩ := b64PtonCount_encode hsrc hlen
    refine ⟨rest, ?_⟩
    rw [b64Pton, hrun, ← asInt_of_lt hb]
    rfl
  canonical src target r target' htarget hrun hr := by
    obtain ⟨c, t, hcount, hlen⟩ := @loop_room src 0 0 target (.inl rfl)
    obtain ⟨rfl, rfl⟩ : asInt c = r ∧ t = target' := by
      rw [b64Pton, b64PtonCount, hcount] at hrun
      simpa [bind, Except.bind] using hrun
    cases c with
    | none => exact absurd hr (by decide)
    | some n =>
      obtain ⟨hn, hsrc⟩ := squeeze_of_b64PtonCount hcount
      have hlt : n < 2 ^ 31 := by
        by_contra hge
        rw [asInt_of_le (by omega) (by omega)] at hr
        omega
      rw [asInt_of_lt hlt, Int.toNat_natCast]
      exact ⟨by rw [hlen]; exact hn, hsrc⟩
  inBounds src target := by
    obtain ⟨c, t, hcount, hlen⟩ := @loop_room src 0 0 target (.inl rfl)
    refine ⟨asInt c, t, ?_, hlen⟩
    rw [b64Pton, b64PtonCount, hcount]
    rfl

/-- `AQI=` with white space in it. -/
theorem readsBase64_pair :
    ∃ rest, b64Pton (str "AQ I\n=") [0, 0, 0] = .ok (2, [1, 2] ++ rest) :=
  readsBase64.encoding [1, 2] (str "AQ I\n=") [0, 0, 0] (by decide) (by decide) (by decide)

/-- Where an `int` does not hold the count, another number is returned. -/
lemma b64Pton_encode_of_le {b : List UInt8} {target : Target} (hb : 2 ^ 31 ≤ b.length)
    (hb' : b.length < 2 ^ 32) (hlen : b.length + 1 ≤ target.length) :
    ∃ rest, b64Pton (base64.encode b) target = .ok ((b.length : Int) - 2 ^ 32, b ++ rest) := by
  obtain ⟨rest, hrun⟩ := b64PtonCount_encode (squeeze_encode b) hlen
  refine ⟨rest, ?_⟩
  rw [b64Pton, hrun, ← asInt_of_le hb hb']
  rfl

lemma b64Pton_ne_of_le {b : List UInt8} {target : Target} (hb : b.length = 2 ^ 31)
    (hlen : target.length = 2 ^ 31 + 1) :
    ¬ ∃ rest, b64Pton (base64.encode b) target = .ok (2 ^ 31, rest) := by
  rintro ⟨rest, h⟩
  obtain ⟨rest', h'⟩ := @b64Pton_encode_of_le b target (by omega) (by omega) (by omega)
  have hret : (b.length : Int) - 2 ^ 32 = 2 ^ 31 :=
    congrArg Prod.fst (Except.ok.inj (h'.symm.trans h))
  omega

/-- The length of `2 ^ 31` zero bytes is not what is returned for their encoding. -/
theorem b64Pton_overflow :
    ¬ ∃ rest, b64Pton (base64.encode (List.replicate (2 ^ 31) 0)) (List.replicate (2 ^ 31 + 1) 0) =
      .ok (2 ^ 31, rest) :=
  b64Pton_ne_of_le List.length_replicate List.length_replicate

end Adbd.Base64Decode
