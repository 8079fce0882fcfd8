import Mathlib.Order.Nat
import Adbd.Model.ServiceStreams

/-!
# The picture a host gets

`framebuffer_service` copies the pixels in blocks of 640 bytes as long as the index is below the
size, and then `size%640` bytes more.  The last block of the loop is a whole one even where less
is left of the picture, and the bytes behind the loop are then copied in addition.  So a host gets
the picture and nothing else if and only if its size is a multiple of 640.
-/

namespace Adbd.FramebufferStream

open Bytes Syscall

/-- Bytes of a pixel. -/
def pixelBytes (f : UInt32) : ℕ := if f = 3 then 3 else if f = 4 then 2 else 4

/-- Bytes of a picture. -/
def pictureSize (w h f : UInt32) : ℕ := w.toNat * h.toNat * pixelBytes f

/-- What `screencap` writes in front of the pixels. -/
def preamble (w h f : UInt32) : List UInt8 := [w, h, f].flatMap fun x => leBytes 4 x.toNat

/-- The host has the header and the picture, and nothing behind the picture has been read. -/
def Streamed (w h f : UInt32) (pixels : List UInt8) (r : List ReadResult × Sink) : Prop :=
  ∃ fbinfo, Fbinfo.ofFormat w h f = some fbinfo ∧ fbinfo.size.toNat = pictureSize w h f ∧
    r.2.output = fbinfo.bytes ++ pixels.take (pictureSize w h f) ∧
    bytesOf r.1 = pixels.drop (pictureSize w h f)

/-! ## The host -/

section Blocks

variable {source source' : List ReadResult} {host host' : Sink} {n k : ℕ} {ok : Bool}

lemma write_patient (bs : List UInt8) (hp : Patient host.replies) :
    ∃ host', host.write bs = (true, host') ∧ host'.output = host.output ++ bs ∧
      Patient host'.replies := by
  obtain ⟨rest, hw, hrest⟩ := writeFull_patient hp (le_refl bs.length)
  exact ⟨_, by rw [Sink.write, writex, hw], rfl, hrest⟩

/-- A block is either left out or copied as a whole. -/
lemma copyBlock_cases (hp : Patient host.replies)
    (h : copyBlock n source host = (ok, source', host')) :
    Patient host'.replies ∧ (ok = false ∧ host' = host ∨
      ok = true ∧ host'.output.length = host.output.length + n) := by
  unfold copyBlock at h
  split at h
  case h_1 =>
    cases h
    exact ⟨hp, .inl ⟨rfl, rfl⟩⟩
  case h_2 bs s hread =>
    obtain ⟨host₁, hw, hout, hp'⟩ := write_patient bs hp
    simp only [hw] at h
    cases h
    refine ⟨hp', .inr ⟨rfl, ?_⟩⟩
    rw [hout, List.length_append, (readFull_some hread).1]

/-- Where the source has a block, it is copied. -/
lemma copyBlock_flowing (hs : Flowing source) (hn : n ≤ (bytesOf source).length)
    (hp : Patient host.replies) :
    ∃ source' host', copyBlock n source host = (true, source', host') ∧
      host'.output = host.output ++ (bytesOf source).take n ∧
      bytesOf source' = (bytesOf source).drop n ∧ Flowing source' ∧ Patient host'.replies := by
  obtain ⟨s, hread, hrest, hs'⟩ := readFull_flowing hs hn
  obtain ⟨host₁, hw, hout, hp'⟩ := write_patient ((bytesOf source).take n) hp
  exact ⟨s, host₁, by rw [copyBlock, readx, hread]; simp only [hw], hout, hrest, hs', hp'⟩

/-! ## The loop -/

variable {size i : UInt32}

lemma toNat_add_block (hsize : size.toNat < 2 ^ 31) (hi : i < size) :
    (i + UInt32.ofNat fbBlock).toNat = i.toNat + 640 := by
  have hlt : i.toNat < size.toNat := UInt32.lt_iff_toNat_lt.mp hi
  have hblock : (UInt32.ofNat fbBlock).toNat = 640 := rfl
  rw [UInt32.toNat_add, hblock]
  omega

/-- The loop copies whole blocks, and it does not end by itself before the size is reached. -/
lemma copyBlocks_count (hsize : size.toNat < 2 ^ 31) (hp : Patient host.replies)
    (h : copyBlocks size n i source host = (ok, source', host')) :
    Patient host'.replies ∧ ∃ m, host'.output.length = host.output.length + 640 * m ∧
      (ok = true → size.toNat ≤ i.toNat + 640 * m) := by
  induction n generalizing i source host with
  | zero =>
    cases h
    exact ⟨hp, 0, rfl, nofun⟩
  | succ n ih =>
    rw [copyBlocks] at h
    by_cases hi : i < size
    case neg =>
      rw [if_neg hi] at h
      cases h
      have hge : size.toNat ≤ i.toNat := Nat.le_of_not_lt fun hlt =>
        hi (UInt32.lt_iff_toNat_lt.mpr hlt)
      exact ⟨hp, 0, rfl, fun _ => by omega⟩
    rw [if_pos hi] at h
    obtain ⟨ok₁, s, host₁, hblock⟩ : ∃ ok s host₁, copyBlock fbBlock source host = (ok, s, host₁) :=
      ⟨_, _, _, rfl⟩
    obtain ⟨hp₁, ⟨rfl, rfl⟩ | ⟨rfl, hlen⟩⟩ := copyBlock_cases hp hblock
    · simp only [hblock] at h
      cases h
      exact ⟨hp, 0, rfl, nofun⟩
    · simp only [hblock] at h
      obtain ⟨hp', m, hm, hend⟩ := ih hp₁ h
      have hblk : fbBlock = 640 := rfl
      refine ⟨hp', m + 1, by omega, fun hok => ?_⟩
      have := hend hok
      rw [toNat_add_block hsize hi] at this
      omega

/-- Where whole blocks make up the size and the source has them, they are what is copied. -/
lemma copyBlocks_flowing (hsize : size.toNat < 2 ^ 31) (hk : size.toNat = i.toNat + 640 * k)
    (hs : Flowing source) (hlen : 640 * k ≤ (bytesOf source).length)
    (hn : (bytesOf source).length < n) (hp : Patient host.replies) :
    ∃ source' host', copyBlocks size n i source host = (true, source', host') ∧
      host'.output = host.output ++ (bytesOf source).take (640 * k) ∧
      bytesOf source' = (bytesOf source).drop (640 * k) ∧ Flowing source' ∧
      Patient host'.replies := by
  induction k generalizing n i source host with
  | zero =>
    obtain ⟨n, rfl⟩ : ∃ m, n = m + 1 := ⟨n - 1, by omega⟩
    have hi : ¬ i < size := fun hi => by
      have := UInt32.lt_iff_toNat_lt.mp hi
      omega
    exact ⟨source, host, by rw [copyBlocks, if_neg hi], by simp, by simp, hs, hp⟩
  | succ k ih =>
    obtain ⟨n, rfl⟩ : ∃ m, n = m + 1 := ⟨n - 1, by omega⟩
    have hi : i < size := UInt32.lt_iff_toNat_lt.mpr (by omega)
    have hblk : fbBlock = 640 := rfl
    obtain ⟨s, host₁, hblock, hout, hrest, hs', hp'⟩ :=
      copyBlock_flowing hs (n := fbBlock) (by omega) hp
    have hlen' : (bytesOf s).length = (bytesOf source).length - 640 := by
      rw [hrest, List.length_drop, hblk]
    obtain ⟨s', host₂, hloop, hout', hrest', hs'', hp''⟩ :=
      @ih s host₁ n (i + UInt32.ofNat fbBlock) (by rw [toNat_add_block hsize hi]; omega) hs'
        (by omega) (by omega) hp'
    refine ⟨s', host₂, ?_, ?_, ?_, hs'', hp''⟩
    · rw [copyBlocks, if_pos hi, hblock]
      exact hloop
    · rw [hout', hout, hrest, hblk, List.append_assoc, ← List.take_add,
        show 640 * (k + 1) = 640 + 640 * k by omega]
    · rw [hrest', hrest, hblk, List.drop_drop, show 640 * (k + 1) = 640 + 640 * k by omega]

end Blocks

/-! ## The service -/

section Service

variable {w h f : UInt32} {pixels : List UInt8} {source : List ReadResult} {host : Sink}

lemma toNat_size {c : UInt32} (hsize : w.toNat * h.toNat * c.toNat < 2 ^ 31) :
    (w * h * c).toNat = w.toNat * h.toNat * c.toNat := by
  rw [UInt32.toNat_mul, UInt32.toNat_mul, Nat.mod_mul_mod, Nat.mod_eq_of_lt (by omega)]

/-- Every format has a header, with the size of the picture. -/
lemma ofFormat_some (hf : 1 ≤ f ∧ f ≤ 5) (hsize : pictureSize w h f < 2 ^ 31) :
    ∃ fbinfo, Fbinfo.ofFormat w h f = some fbinfo ∧ fbinfo.size.toNat = pictureSize w h f := by
  have hcases : f = 1 ∨ f = 2 ∨ f = 3 ∨ f = 4 ∨ f = 5 := by
    have h1 := UInt32.le_iff_toNat_le.mp hf.1
    have h5 := UInt32.le_iff_toNat_le.mp hf.2
    simp only [← UInt32.toNat_inj, UInt32.reduceToNat] at h1 h5 ⊢
    omega
  obtain rfl | rfl | rfl | rfl | rfl := hcases <;> exact ⟨_, rfl, toNat_size hsize⟩

/-- One word of the preamble. -/
lemma readx_word {x : UInt32} {rest : List UInt8} (hs : Flowing source)
    (hb : bytesOf source = leBytes 4 x.toNat ++ rest) :
    ∃ source', readx 4 source = (some (leBytes 4 x.toNat), source') ∧ bytesOf source' = rest ∧
      Flowing source' :=
  readFull_append hs hb (length_leBytes _ _)

lemma wordAt_leBytes (x : UInt32) : wordAt (leBytes 4 x.toNat) 0 = x := by
  rw [wordAt, Nat.mul_zero, List.drop_zero, List.take_of_length_le (length_leBytes _ _).le,
    word_roundtrip]

/-- The service up to the loop. -/
lemma framebufferService_eq (hf : 1 ≤ f ∧ f ≤ 5) (hsize : pictureSize w h f < 2 ^ 31)
    (hs : Flowing source) (hb : bytesOf source = preamble w h f ++ pixels)
    (hp : Patient host.replies) :
    ∃ fbinfo source' host', Fbinfo.ofFormat w h f = some fbinfo ∧
      fbinfo.size.toNat = pictureSize w h f ∧ host'.output = host.output ++ fbinfo.bytes ∧
      bytesOf source' = pixels ∧ Flowing source' ∧ Patient host'.replies ∧
      framebufferService true true source host = copyPixels fbinfo.size source' host' := by
  obtain ⟨fbinfo, hinfo, hinfosize⟩ := ofFormat_some hf hsize
  simp only [preamble, List.flatMap_cons, List.flatMap_nil, List.append_nil,
    List.append_assoc] at hb
  obtain ⟨s₁, hw, hb₁, hs₁⟩ := readx_word hs hb
  obtain ⟨s₂, hh, hb₂, hs₂⟩ := readx_word hs₁ hb₁
  obtain ⟨s₃, hf', hb₃, hs₃⟩ := readx_word hs₂ hb₂
  obtain ⟨host', hwrite, hout, hp'⟩ := write_patient fbinfo.bytes hp
  refine ⟨fbinfo, s₃, host', hinfo, hinfosize, hout, hb₃, hs₃, hp', ?_⟩
  rw [framebufferService, Bool.and_self, if_pos rfl, framebufferCopy]
  simp only [hw, hh, hf', wordAt_leBytes, hinfo, hwrite]

/-- A picture of whole blocks is streamed. -/
lemma streamed_of_dvd (hf : 1 ≤ f ∧ f ≤ 5) (hsize : pictureSize w h f < 2 ^ 31)
    (hs : Flowing source) (hb : bytesOf source = preamble w h f ++ pixels)
    (hlen : pictureSize w h f ≤ pixels.length) (hp : Patient host.replies)
    (hhost : host.output = []) (hdvd : 640 ∣ pictureSize w h f) :
    Streamed w h f pixels (framebufferService true true source host) := by
  obtain ⟨fbinfo, s, host₁, hinfo, hinfosize, hout, hrest, hs₁, hp₁, heq⟩ :=
    framebufferService_eq hf hsize hs hb hp
  obtain ⟨k, hk⟩ := hdvd
  have hblocks : fbinfo.size.toNat = UInt32.toNat 0 + 640 * k := by
    rw [hinfosize, hk]
    exact (Nat.zero_add _).symm
  obtain ⟨s', host₂, hloop, hout', hrest', hs₂, hp₂⟩ :=
    copyBlocks_flowing (by omega) hblocks hs₁ (by rw [hrest, ← hk]; exact hlen)
      (Nat.lt_succ_self _) hp₁
  obtain ⟨s'', host₃, hblock, hout'', hrest'', -, -⟩ := copyBlock_flowing hs₂ (Nat.zero_le _) hp₂
  have hmod : fbinfo.size.toNat % fbBlock = 0 := by
    rw [hinfosize, hk]
    exact Nat.mul_mod_right 640 k
  have hrun : framebufferService true true source host = (s'', host₃) := by
    rw [heq, copyPixels, hloop]
    simp only [hmod, hblock]
  rw [hrun]
  refine ⟨fbinfo, hinfo, hinfosize, ?_, ?_⟩
  · rw [hout'', List.take_zero, List.append_nil, hout', hout, hhost, List.nil_append, hrest, hk]
  · rw [hrest'', List.drop_zero, hrest', hrest, hk]

/-- What the host has got besides the header is either made up of whole blocks, or they reach the
size and the remainder is there too. -/
lemma copyPixels_count {size : UInt32} {host' : Sink} {source' : List ReadResult}
    (hsize : size.toNat < 2 ^ 31) (hp : Patient host.replies)
    (h : copyPixels size source host = (source', host')) :
    ∃ m, host'.output.length = host.output.length + 640 * m ∨
      size.toNat ≤ 640 * m ∧
        host'.output.length = host.output.length + 640 * m + size.toNat % 640 := by
  rw [copyPixels] at h
  split at h
  case h_1 hloop =>
    cases h
    obtain ⟨-, m, hm, -⟩ := copyBlocks_count hsize hp hloop
    exact ⟨m, .inl hm⟩
  case h_2 s₁ host₁ hloop =>
    obtain ⟨hp₁, m, hm, hend⟩ := copyBlocks_count hsize hp hloop
    have hreached : size.toNat ≤ 640 * m := by simpa using hend rfl
    have hblock : copyBlock (size.toNat % fbBlock) s₁ host₁ = (_, source', host') :=
      Prod.ext rfl h
    obtain ⟨-, ⟨-, rfl⟩ | ⟨-, hlen⟩⟩ := copyBlock_cases hp₁ hblock
    · exact ⟨m, .inl hm⟩
    · exact ⟨m, .inr ⟨hreached, by rw [← hm]; exact hlen⟩⟩

/-- A picture that is streamed has whole blocks. -/
lemma dvd_of_streamed (hf : 1 ≤ f ∧ f ≤ 5) (hsize : pictureSize w h f < 2 ^ 31)
    (hs : Flowing source) (hb : bytesOf source = preamble w h f ++ pixels)
    (hlen : pictureSize w h f ≤ pixels.length) (hp : Patient host.replies)
    (hhost : host.output = [])
    (hstr : Streamed w h f pixels (framebufferService true true source host)) :
    640 ∣ pictureSize w h f := by
  obtain ⟨fbinfo, s, host₁, hinfo, hinfosize, hout, hrest, hs₁, hp₁, heq⟩ :=
    framebufferService_eq hf hsize hs hb hp
  obtain ⟨fbinfo', hinfo', -, hstream, -⟩ := hstr
  obtain rfl : fbinfo = fbinfo' := Option.some.inj (hinfo.symm.trans hinfo')
  have htotal : (framebufferService true true source host).2.output.length =
      host₁.output.length + pictureSize w h f := by
    rw [hstream, hout, hhost, List.nil_append, List.length_append, List.length_take,
      min_eq_left hlen]
  obtain ⟨s', host₂, hpixels⟩ : ∃ s' host₂, copyPixels fbinfo.size s host₁ = (s', host₂) :=
    ⟨_, _, rfl⟩
  rw [heq, hpixels] at htotal
  simp only at htotal
  obtain ⟨m, hm | ⟨hreached, hm⟩⟩ := copyPixels_count (by omega) hp₁ hpixels
  · exact ⟨m, by omega⟩
  · omega

end Service

/-- The host gets the picture and nothing else if and only if whole blocks make up the picture. -/
theorem streamed_iff {w h f : UInt32} {pixels : List UInt8} {source : List ReadResult}
    {replies : List WriteResult} (hf : 1 ≤ f ∧ f ≤ 5) (hsize : pictureSize w h f < 2 ^ 31)
    (hs : Flowing source) (hb : bytesOf source = preamble w h f ++ pixels)
    (hlen : pictureSize w h f ≤ pixels.length) (hp : Patient replies) :
    Streamed w h f pixels (framebufferService true true source { replies := replies }) ↔
      640 ∣ pictureSize w h f :=
  ⟨dvd_of_streamed hf hsize hs hb hlen hp rfl, streamed_of_dvd hf hsize hs hb hlen hp rfl⟩

/-- A picture of 16 by 10 pixels is one block. -/
theorem streamed_iff_block :
    Streamed 16 10 1 (List.replicate 640 0) (framebufferService true true
      [.data (preamble 16 10 1), .data (List.replicate 640 0)]
      { replies := [.intr, .wrote 50] }) ↔ 640 ∣ pictureSize 16 10 1 :=
  streamed_iff (by decide) (by decide)
    (@flowing_data [preamble 16 10 1, List.replicate 640 0] (by decide +kernel))
    (by rw [bytesOf, bytesOf, bytesOf, List.append_nil]) (by decide +kernel) (by simp [Patient])

/-- Of a picture of a single pixel the host gets the header only: the loop waits for a whole
block. -/
theorem not_streamed_pixel :
    ¬ Streamed 1 1 1 [1, 2, 3, 4] (framebufferService true true
      [.data (preamble 1 1 1), .data [1, 2, 3, 4]] {}) := fun h =>
  absurd (dvd_of_streamed (by decide) (by decide)
    (@flowing_data [preamble 1 1 1, [1, 2, 3, 4]] (by decide)) (by simp [bytesOf])
    (by decide) (by simp [Patient]) rfl h) (by decide)

end Adbd.FramebufferStream
