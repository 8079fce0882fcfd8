import Adbd.Properties.BannerFit

/-!
# Reading the banner back

`fill_connect_data` prints `banner::ro.product.name=...;ro.product.model=...;ro.product.device=...;`
and `parse_banner` takes such a text apart: at the first two `:`, then into tokens at `;`, then
each token at its first `=`.  Printing and reading back gives the three values and the state the
banner names, whatever the transport knew before (`parseBanner_fillConnectData`).
-/

namespace Adbd

open Transition

namespace Banner

open Daemon

/-! ## Cutting at a separator -/

lemma takeWhile_ne_append {a : UInt8} {xs : List UInt8} (h : a ∉ xs) (ys : List UInt8) :
    (xs ++ a :: ys).takeWhile (· ≠ a) = xs := by
  rw [List.takeWhile_append_of_pos (fun b hb => decide_eq_true (ne_of_mem_of_not_mem hb h)),
    List.takeWhile_cons_of_neg (by simp), List.append_nil]

lemma drop_dropWhile_ne_append {a : UInt8} {xs : List UInt8} (h : a ∉ xs) (ys : List UInt8) :
    ((xs ++ a :: ys).dropWhile (· ≠ a)).drop 1 = ys := by
  rw [List.dropWhile_append_of_pos (fun b hb => decide_eq_true (ne_of_mem_of_not_mem hb h)),
    List.dropWhile_cons_of_neg (by simp), List.drop_one, List.tail_cons]

/-! ## The printed text -/

/-- Property `i` without the `;` behind it. -/
def token (c : Config) (i : ℕ) : List UInt8 := cnxnProps.getD i [] ++ 0x3d :: c.values.getD i []

lemma propText_eq (c : Config) (i : ℕ) (rest : List UInt8) :
    propText c i ++ rest = token c i ++ 0x3b :: rest := by
  have heq : str "=" = [0x3d] := rfl
  have hsemi : str ";" = [0x3b] := rfl
  simp [propText, token, heq, hsemi]

lemma bannerText_eq (c : Config) : bannerText c =
    c.banner ++ 0x3a :: 0x3a :: (token c 0 ++ 0x3b :: (token c 1 ++ 0x3b ::
      (token c 2 ++ 0x3b :: []))) := by
  have hcolons : str "::" = [0x3a, 0x3a] := rfl
  rw [bannerText, ← propText_eq, ← propText_eq, ← propText_eq, hcolons]
  simp

/-- What the property names look like: no separator and no terminator in them. -/
lemma cnxnProps_plain : ∀ i < 3, 0x3b ∉ cnxnProps.getD i [] ∧ 0x3d ∉ cnxnProps.getD i [] ∧
    0 ∉ cnxnProps.getD i [] := by
  decide

variable {c : Config}

lemma semicolon_not_mem_token {i : ℕ} (hi : i < 3) (hvalue : 0x3b ∉ c.values.getD i []) :
    0x3b ∉ token c i := by
  rw [token, List.mem_append, List.mem_cons]
  rintro (h | h | h)
  · exact (cnxnProps_plain i hi).1 h
  · cases h
  · exact hvalue h

lemma zero_not_mem_token {i : ℕ} (hi : i < 3) (hvalue : 0 ∉ c.values.getD i []) :
    0 ∉ token c i := by
  rw [token, List.mem_append, List.mem_cons]
  rintro (h | h | h)
  · exact (cnxnProps_plain i hi).2.2 h
  · cases h
  · exact hvalue h

/-- The text is a C string. -/
lemma zero_not_mem_bannerText (hbanner : 0 ∉ c.banner)
    (hvalues : ∀ i < 3, 0 ∉ c.values.getD i []) : 0 ∉ bannerText c := by
  have h₀ := zero_not_mem_token (by decide) (hvalues 0 (by decide))
  have h₁ := zero_not_mem_token (by decide) (hvalues 1 (by decide))
  have h₂ := zero_not_mem_token (by decide) (hvalues 2 (by decide))
  rw [bannerText_eq]
  simp only [List.mem_append, List.mem_cons, List.not_mem_nil, or_false, not_or]
  exact ⟨hbanner, by decide, by decide, h₀, by decide, h₁, by decide, h₂, by decide⟩

/-! ## Reading back -/

/-- The tokens of the properties are the properties. -/
lemma tokens_eq (hvalues : ∀ i < 3, 0x3b ∉ c.values.getD i []) :
    ((token c 0 ++ 0x3b :: (token c 1 ++ 0x3b :: (token c 2 ++ 0x3b :: []))).splitOn
      0x3b).filter (· ≠ []) = [token c 0, token c 1, token c 2] := by
  have h : ∀ i < 3, 0x3b ∉ token c i := fun i hi => semicolon_not_mem_token hi (hvalues i hi)
  have hne : ∀ i, token c i ≠ [] := fun i => by simp [token]
  rw [List.splitOn_append_cons_self_of_not_mem (h 0 (by decide)),
    List.splitOn_append_cons_self_of_not_mem (h 1 (by decide)),
    List.splitOn_append_cons_self_of_not_mem (h 2 (by decide))]
  simp [hne]

/-- A token is taken apart at the `=` behind its name, not at one in its value. -/
lemma applyProp_token (c : Config) (x : Atransport) :
    applyProp x (token c 0) = { x with product := qualOverwrite (c.values.getD 0 []) } ∧
    applyProp x (token c 1) = { x with model := qualOverwrite (c.values.getD 1 []) } ∧
    applyProp x (token c 2) = { x with device := qualOverwrite (c.values.getD 2 []) } := by
  have hkey : ∀ i < 3, (token c i).takeWhile (· ≠ 0x3d) = cnxnProps.getD i [] :=
    fun i hi => takeWhile_ne_append (cnxnProps_plain i hi).2.1 _
  have hvalue : ∀ i < 3, ((token c i).dropWhile (· ≠ 0x3d)).drop 1 = c.values.getD i [] :=
    fun i hi => drop_dropWhile_ne_append (cnxnProps_plain i hi).2.1 _
  have hmem : ∀ i, 0x3d ∈ token c i := fun i => by simp [token]
  refine ⟨?_, ?_, ?_⟩
  · rw [applyProp, if_pos (hmem 0), hkey 0 (by decide), hvalue 0 (by decide)]
    exact if_pos rfl
  · rw [applyProp, if_pos (hmem 1), hkey 1 (by decide), hvalue 1 (by decide)]
    exact (if_neg (by decide)).trans (if_pos rfl)
  · rw [applyProp, if_pos (hmem 2), hkey 2 (by decide), hvalue 2 (by decide)]
    exact (if_neg (by decide)).trans ((if_neg (by decide)).trans (if_pos rfl))

/-- `parse_banner` of the printed text. -/
lemma parseBanner_bannerText (x : Atransport) (hbanner : 0x3a ∉ c.banner)
    (hvalues : ∀ i < 3, 0x3b ∉ c.values.getD i []) :
    parseBanner (bannerText c) x = { x with
      product := qualOverwrite (c.values.getD 0 []), model := qualOverwrite (c.values.getD 1 []),
      device := qualOverwrite (c.values.getD 2 []), connectionState := bannerState c.banner } := by
  rw [bannerText_eq, parseBanner, takeWhile_ne_append hbanner, drop_dropWhile_ne_append hbanner,
    List.dropWhile_cons_of_neg (by simp), List.drop_one, List.tail_cons, tokens_eq hvalues,
    List.foldl_cons, List.foldl_cons, List.foldl_cons, List.foldl_nil, (applyProp_token c _).1,
    (applyProp_token c _).2.1, (applyProp_token c _).2.2]

/-- A text that fits the buffer is read back, by a receiver with any bytes behind the packet, as
what it was printed from. -/
theorem parseBanner_fillConnectData {data : List UInt8} (x : Atransport)
    (hbanner : 0 ∉ c.banner ∧ 0x3a ∉ c.banner)
    (hvalues : ∀ i < 3, 0 ∉ c.values.getD i [] ∧ 0x3b ∉ c.values.getD i [])
    (hsize : data.length ≤ 2 ^ 31) (hfits : (bannerText c).length + 1 ≤ data.length) :
    ∃ data' n text, fillConnectData c data = .ok (data', n) ∧
      (∀ rest, cstr (data'.take n.toNat ++ rest) = .ok text) ∧
      parseBanner text x = { x with
        product := if c.values.getD 0 [] = [] then none else some (c.values.getD 0 []),
        model := if c.values.getD 1 [] = [] then none else some (c.values.getD 1 []),
        device := if c.values.getD 2 [] = [] then none else some (c.values.getD 2 []),
        connectionState := bannerState c.banner } := by
  have hlen := length_bannerText c
  have hpieces : ∀ text ∈ pieces c, text.length < 2 ^ 31 := by
    intro text ht
    simp only [pieces, List.mem_cons, List.not_mem_nil, or_false] at ht
    rcases ht with rfl | rfl | rfl | rfl <;> omega
  obtain ⟨n, hn, hfill⟩ := fillConnectData_room (by omega) hpieces hfits
  have hzero := zero_not_mem_bannerText hbanner.1 fun i hi => (hvalues i hi).1
  refine ⟨_, n, bannerText c, hfill, fun rest => ?_,
    parseBanner_bannerText x hbanner.2 fun i hi => (hvalues i hi).2⟩
  have htake : (bannerText c ++ [0] ++ data.drop ((bannerText c).length + 1)).take n.toNat =
      bannerText c ++ [0] := by
    rw [hn, ← List.length_singleton (a := (0 : UInt8)), ← List.length_append, List.take_left]
  rw [htake, List.append_assoc, cstr, if_pos (by simp), List.singleton_append,
    takeWhile_ne_append hzero]

/-- The default banner and values, with an empty model name, in a packet. -/
theorem parseBanner_fillConnectData_default :
    ∃ data' n text, fillConnectData { values := [str "Linux", [], str "a=b:c"] }
        (List.replicate 100 0) = .ok (data', n) ∧
      (∀ rest, cstr (data'.take n.toNat ++ rest) = .ok text) ∧
      parseBanner text { type := .usb, model := some (str "old") } =
        { type := .usb, product := some (str "Linux"), model := none,
          device := some (str "a=b:c"), connectionState := .device } :=
  parseBanner_fillConnectData { type := .usb, model := some (str "old") }
    (by decide) (by decide) (by decide) (by decide)

end Banner

end Adbd
