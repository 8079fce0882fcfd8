import Adbd.Framework.Ring
import Mathlib.Data.Set.Insert

/-!
# Several circular lists over the same elements

An element has one `next` and one `prev`, and so it can be linked behind one sentinel at a time.
`Rings R head S L` says that behind each sentinel `head i`, `i ∈ S`, the pointers run through the
elements of `L i`, and that no element is in two of these lists.

The operations are told different things than their effect shows: linking is given the sentinel,
but unlinking only the element, and it takes effect in whatever list the element is linked in.
Here an element that is unlinked points to itself.
-/

namespace Ring

open Function

variable {α : Type} [DecidableEq α]

namespace Links

/-- Pointers none of which is set. -/
def null : Links α where
  next _ := none
  prev _ := none

/-- A sentinel of an empty list: `h->next=h->prev=h`. -/
def init (h : Option α) (R : Links α) : Links α := (R.setNext h (some h)).setPrev h (some h)

/-- Link `a` in front of the sentinel `h`: `a->next=h; a->prev=h->prev; a->prev->next=a;
h->prev=a`. -/
def linkBefore (h : Option α) (a : α) (R : Links α) : Option (Links α) :=
  let R := (R.setNext (some a) (some h)).setPrev (some a) (R.prev h)
  match R.prev (some a) with
  | none => none
  | some p => some ((R.setNext p (some (some a))).setPrev h (some (some a)))

/-- Unlink `a`: `a->prev->next=a->next; a->next->prev=a->prev; a->next=a->prev=a`. -/
def isolate (a : α) (R : Links α) : Option (Links α) :=
  match R.prev (some a) with
  | none => none
  | some p =>
    let R := R.setNext p (R.next (some a))
    match R.next (some a) with
    | none => none
    | some q => some ((R.setPrev q (R.prev (some a))).init (some a))

end Links

/-! ## What the operations do to the pointers -/

lemma init_next {R : Links α} {h w : Option α} :
    (R.init h).next w = if w = h then some h else R.next w := by
  change Function.update R.next h (some h) w = _
  rw [Function.update_apply]

lemma init_prev {R : Links α} {h w : Option α} :
    (R.init h).prev w = if w = h then some h else R.prev w := by
  change Function.update R.prev h (some h) w = _
  rw [Function.update_apply]

lemma linkBefore_eq {R : Links α} {h p : Option α} {a : α} (hp : R.prev h = some p) :
    ∃ R', R.linkBefore h a = some R' ∧
      (∀ w, R'.next w =
        if w = p then some (some a) else if w = some a then some h else R.next w) ∧
      ∀ w, R'.prev w =
        if w = h then some (some a) else if w = some a then R.prev h else R.prev w := by
  let R₁ := (R.setNext (some a) (some h)).setPrev (some a) (R.prev h)
  have hp₁ : R₁.prev (some a) = some p := by
    change Function.update R.prev (some a) (R.prev h) (some a) = _
    rw [Function.update_self, hp]
  refine ⟨(R₁.setNext p (some (some a))).setPrev h (some (some a)), ?_, ?_, ?_⟩
  · unfold Links.linkBefore
    change (match R₁.prev (some a) with
      | none => none
      | some p => some ((R₁.setNext p (some (some a))).setPrev h (some (some a)))) = _
    rw [hp₁]
  · intro w
    change Function.update (Function.update R.next (some a) (some h)) _ _ w = _
    simp only [Function.update_apply]
  · intro w
    change Function.update (Function.update R.prev (some a) (R.prev h)) _ _ w = _
    simp only [Function.update_apply]

lemma isolate_eq {R : Links α} {p q : Option α} {a : α} (hp : R.prev (some a) = some p)
    (hq : R.next (some a) = some q) (hpa : some a ≠ p) :
    ∃ R', R.isolate a = some R' ∧
      (∀ w, R'.next w =
        if w = some a then some (some a) else if w = p then some q else R.next w) ∧
      ∀ w, R'.prev w =
        if w = some a then some (some a) else if w = q then some p else R.prev w := by
  let R₁ := R.setNext p (R.next (some a))
  have hnext : ∀ w, R₁.next w = if w = p then some q else R.next w := by
    intro w
    change Function.update R.next p (R.next (some a)) w = _
    rw [Function.update_apply, hq]
  have hq₁ : R₁.next (some a) = some q := by
    rw [hnext, if_neg hpa, hq]
  refine ⟨(R₁.setPrev q (R₁.prev (some a))).init (some a), ?_, ?_, ?_⟩
  · unfold Links.isolate
    rw [hp]
    change (match R₁.next (some a) with
      | none => none
      | some q => some ((R₁.setPrev q (R₁.prev (some a))).init (some a))) = _
    rw [hq₁]
  · intro w
    rw [init_next]
    exact if_congr Iff.rfl rfl (hnext w)
  · intro w
    rw [init_prev]
    refine if_congr Iff.rfl rfl ?_
    change Function.update R.prev q (R.prev (some a)) w = _
    rw [Function.update_apply, hp]

/-! ## The lists behind a family of sentinels -/

variable {ι : Type}

/-- The rings through the sentinels `head i`, `i ∈ S`, with the elements of `L i`. -/
structure Rings (R : Links α) (head : ι → Option α) (S : Set ι) (L : ι → List α) : Prop where
  ring : ∀ i ∈ S, Segment R (head i) (L i) (head i)
  nodup : ∀ i ∈ S, (L i).Nodup
  /-- A sentinel is not an element. -/
  heads : ∀ i ∈ S, ∀ a ∈ L i, ∀ j, head j ≠ some a
  /-- No element is in two lists. -/
  apart : ∀ i ∈ S, ∀ j ∈ S, ∀ a, a ∈ L i → a ∈ L j → i = j

namespace Rings

variable {R : Links α} {head : ι → Option α} {S : Set ι} {L : ι → List α} {a : α} {i : ι}

omit [DecidableEq α] in
/-- The pointers determine the lists. -/
lemma unique {M : ι → List α} (h : Rings R head S L) (h' : Rings R head S M) (hi : i ∈ S) :
    L i = M i :=
  segment_unique_of (fun a ha => h.heads i hi a ha i) (fun a ha => h'.heads i hi a ha i)
    (h.ring i hi) (h'.ring i hi)

omit [DecidableEq α] in
/-- An edit of one list, and of `a`, leaves the others alone. -/
lemma segment_other {R' : Links α} {j : ι} (h : Rings R head S L) (hinj : Injective head)
    (hi : i ∈ S) (hj : j ∈ S) (hne : j ≠ i) (ha : a ∉ L j) (hah : head j ≠ some a)
    (hsame : ∀ w, w ≠ head i → (∀ b ∈ L i, w ≠ some b) → w ≠ some a →
      R'.next w = R.next w ∧ R'.prev w = R.prev w) : Segment R' (head j) (L j) (head j) := by
  have hhead := hsame (head j) (fun heq => hne (hinj heq)) (fun b hb => h.heads i hi b hb j) hah
  have hmem : ∀ b ∈ L j, R'.next (some b) = R.next (some b) ∧
      R'.prev (some b) = R.prev (some b) := by
    intro b hb
    refine hsame _ (h.heads j hj b hb i).symm ?_ ?_
    · rintro c hc ⟨⟩
      exact hne (h.apart j hj i hi b hb hc)
    · rintro ⟨⟩
      exact ha hb
  exact segment_congr (h.ring j hj) hhead.1 hmem hhead.2

omit [DecidableEq α] in
/-- One of the lists is replaced, by elements of it and of `a`. -/
lemma of_update [DecidableEq ι] {R' : Links α} {l : List α} (h : Rings R head S L) (hi : i ∈ S)
    (hring : Segment R' (head i) l (head i)) (hnodup : l.Nodup)
    (hl : ∀ b ∈ l, b ∈ L i ∨ (∀ j, head j ≠ some b) ∧ ∀ j ∈ S, b ∉ L j)
    (hother : ∀ j ∈ S, j ≠ i → Segment R' (head j) (L j) (head j)) :
    Rings R' head S (update L i l) := by
  refine ⟨fun j hj => ?_, fun j hj => ?_, fun j hj => ?_, ?_⟩
  · rcases eq_or_ne j i with rfl | hne
    · rw [update_self]
      exact hring
    · rw [update_of_ne hne]
      exact hother j hj hne
  · rcases eq_or_ne j i with rfl | hne
    · rw [update_self]
      exact hnodup
    · rw [update_of_ne hne]
      exact h.nodup j hj
  · rcases eq_or_ne j i with rfl | hne
    · rw [update_self]
      exact fun b hb => (hl b hb).elim (h.heads j hj b) And.left
    · rw [update_of_ne hne]
      exact h.heads j hj
  · -- an element of the new list is in no other one
    have hapart : ∀ j ∈ S, j ≠ i → ∀ b ∈ l, b ∉ L j := by
      intro j hj hne b hb hbj
      rcases hl b hb with hbi | ⟨-, hfree⟩
      · exact hne (h.apart j hj i hi b hbj hbi)
      · exact hfree j hj hbj
    intro j hj k hk b hbj hbk
    rcases eq_or_ne j i with rfl | hji
    · rcases eq_or_ne k j with rfl | hkj
      · rfl
      · rw [update_self] at hbj
        rw [update_of_ne hkj] at hbk
        exact absurd hbk (hapart k hk hkj b hbj)
    · rw [update_of_ne hji] at hbj
      rcases eq_or_ne k i with rfl | hki
      · rw [update_self] at hbk
        exact absurd hbj (hapart j hj hji b hbk)
      · rw [update_of_ne hki] at hbk
        exact h.apart j hj k hk b hbj hbk

/-- Linking an element that is in none of the lists. -/
theorem linkBefore [DecidableEq ι] (h : Rings R head S L) (hinj : Injective head) (hi : i ∈ S)
    (ha : ∀ j ∈ S, a ∉ L j) (hah : ∀ j, head j ≠ some a) :
    ∃ R', R.linkBefore (head i) a = some R' ∧ Rings R' head S (update L i (L i ++ [a])) := by
  obtain ⟨R', hlink, hnext, hprev⟩ :=
    @linkBefore_eq _ _ R (head i) _ a (segment_last (h.ring i hi)).2
  refine ⟨R', hlink, h.of_update hi ?_ ?_ ?_ fun j hj hne => ?_⟩
  · exact segment_link (h.ring i hi) (h.nodup i hi) (fun b hb => h.heads i hi b hb i) (ha i hi)
      (hah i) hnext hprev
  · rw [List.nodup_append]
    refine ⟨h.nodup i hi, by simp, ?_⟩
    rintro b hb c hc rfl
    exact ha i hi (List.mem_singleton.mp hc ▸ hb)
  · intro b hb
    rcases List.mem_append.mp hb with hb | hb
    · exact .inl hb
    · rw [List.mem_singleton.mp hb]
      exact .inr ⟨hah, ha⟩
  · refine h.segment_other hinj hi hj hne (ha j hj) (hah j) fun w hw hwi hwa => ?_
    have hlast : w ≠ lastOf (head i) (L i) := by
      rcases lastOf_mem (head i) (L i) with h' | ⟨b, hb, h'⟩
      · rw [h']
        exact hw
      · rw [h']
        exact hwi b hb
    rw [hnext, hprev, if_neg hlast, if_neg hwa, if_neg hw, if_neg hwa]
    exact ⟨rfl, rfl⟩

/-- Unlinking an element, which takes effect in the list it is in. -/
theorem isolate [DecidableEq ι] (h : Rings R head S L) (hinj : Injective head) (hi : i ∈ S)
    (ha : a ∈ L i) :
    ∃ R', R.isolate a = some R' ∧ Rings R' head S (update L i ((L i).erase a)) := by
  obtain ⟨l₁, l₂, hl⟩ := List.append_of_mem ha
  have hring := h.ring i hi
  have hnodup := h.nodup i hi
  have hheads := fun b hb => h.heads i hi b hb i
  rw [hl] at hring hnodup hheads
  have ha₁ : a ∉ l₁ := fun h' =>
    (List.nodup_append.mp hnodup).2.2 a h' a (List.mem_cons_self ..) rfl
  have hpa := some_ne_lastOf_of (h.heads i hi a ha i) ha₁
  obtain ⟨hs₁, hs₂⟩ := segment_append.mp hring
  obtain ⟨R', hisolate, hnext, hprev⟩ :=
    isolate_eq (segment_last hs₁).2 (segment_first hs₂) hpa
  have herase : (L i).erase a = l₁ ++ l₂ := by
    rw [hl, List.erase_append_right _ ha₁, List.erase_cons_head]
  refine ⟨R', hisolate, h.of_update hi ?_ ((h.nodup i hi).erase a)
    (fun b hb => .inl (List.mem_of_mem_erase hb)) fun j hj hne => ?_⟩
  · rw [herase]
    refine segment_unlink hring hnodup hheads ?_ ?_
    · intro w hw
      rw [hnext, if_neg hw]
    · intro w hw
      rw [hprev, if_neg hw]
  · have haj : a ∉ L j := fun h' => hne (h.apart j hj i hi a h' ha)
    refine h.segment_other hinj hi hj hne haj (h.heads i hi a ha j) fun w hw hwi hwa => ?_
    have hmem₁ : ∀ b ∈ l₁, b ∈ L i := fun b hb => hl ▸ List.mem_append_left _ hb
    have hmem₂ : ∀ b ∈ l₂, b ∈ L i := fun b hb =>
      hl ▸ List.mem_append_right _ (List.mem_cons_of_mem _ hb)
    have hlast : w ≠ lastOf (head i) l₁ := by
      rcases lastOf_mem (head i) l₁ with h' | ⟨b, hb, h'⟩
      · rw [h']
        exact hw
      · rw [h']
        exact hwi b (hmem₁ b hb)
    have hfirst : w ≠ firstOf l₂ (head i) := by
      rcases firstOf_mem l₂ (head i) with h' | ⟨b, hb, h'⟩
      · rw [h']
        exact hw
      · rw [h']
        exact hwi b (hmem₂ b hb)
    rw [hnext, hprev, if_neg hwa, if_neg hlast, if_neg hwa, if_neg hfirst]
    exact ⟨rfl, rfl⟩

/-- A new sentinel. -/
theorem init [DecidableEq ι] (h : Rings R head S L) (hinj : Injective head) (hi : i ∉ S)
    (hfree : ∀ j ∈ S, ∀ a ∈ L j, head i ≠ some a) :
    Rings (R.init (head i)) head (insert i S) (update L i []) := by
  have hold : ∀ j ∈ insert i S, j ≠ i → j ∈ S := fun j hj hne => hj.resolve_left hne
  refine ⟨fun j hj => ?_, fun j hj => ?_, fun j hj => ?_, fun j hj k hk b hbj hbk => ?_⟩
  · rcases eq_or_ne j i with rfl | hne
    · rw [update_self]
      exact ⟨by rw [init_next, if_pos rfl], by rw [init_prev, if_pos rfl]⟩
    · rw [update_of_ne hne]
      have hjS := hold j hj hne
      have hhead : head j ≠ head i := fun heq => hne (hinj heq)
      refine segment_congr (h.ring j hjS) (by rw [init_next, if_neg hhead]) ?_
        (by rw [init_prev, if_neg hhead])
      intro b hb
      have hbi := (hfree j hjS b hb).symm
      exact ⟨by rw [init_next, if_neg hbi], by rw [init_prev, if_neg hbi]⟩
  · rcases eq_or_ne j i with rfl | hne
    · rw [update_self]
      exact List.nodup_nil
    · rw [update_of_ne hne]
      exact h.nodup j (hold j hj hne)
  · rcases eq_or_ne j i with rfl | hne
    · rw [update_self]
      exact fun b hb => absurd hb List.not_mem_nil
    · rw [update_of_ne hne]
      exact h.heads j (hold j hj hne)
  · have hmem : ∀ m ∈ insert i S, b ∈ update L i [] m → m ∈ S ∧ b ∈ L m := by
      intro m hm hb
      rcases eq_or_ne m i with rfl | hne
      · rw [update_self] at hb
        exact absurd hb List.not_mem_nil
      · rw [update_of_ne hne] at hb
        exact ⟨hold m hm hne, hb⟩
    obtain ⟨hjS, hbj⟩ := hmem j hj hbj
    obtain ⟨hkS, hbk⟩ := hmem k hk hbk
    exact h.apart j hjS k hkS b hbj hbk

omit [DecidableEq α] in
lemma congr {M : ι → List α} (h : Rings R head S L) (hM : ∀ i ∈ S, M i = L i) :
    Rings R head S M where
  ring := fun i hi => (hM i hi).symm ▸ h.ring i hi
  nodup := fun i hi => (hM i hi).symm ▸ h.nodup i hi
  heads := fun i hi a ha => h.heads i hi a (hM i hi ▸ ha)
  apart := fun i hi j hj a hai haj => h.apart i hi j hj a (hM i hi ▸ hai) (hM j hj ▸ haj)

omit [DecidableEq α] in
/-- Fewer sentinels. -/
lemma mono {S' : Set ι} (h : Rings R head S L) (hS : S' ⊆ S) : Rings R head S' L where
  ring := fun i hi => h.ring i (hS hi)
  nodup := fun i hi => h.nodup i (hS hi)
  heads := fun i hi => h.heads i (hS hi)
  apart := fun i hi j hj => h.apart i (hS hi) j (hS hj)

omit [DecidableEq α] in
/-- There are no rings without sentinels. -/
lemma empty : Rings R head ∅ L := ⟨nofun, nofun, nofun, nofun⟩

omit [DecidableEq α] in
/-- The pointers a walk follows: from the sentinel to the first element, -/
lemma next_head (h : Rings R head S L) (hi : i ∈ S) :
    R.next (head i) = some (firstOf (L i) (head i)) := segment_first (h.ring i hi)

omit [DecidableEq α] in
/-- and from an element to what follows it. -/
lemma next_of_mem {l₁ l₂ : List α} (h : Rings R head S L) (hi : i ∈ S)
    (hl : L i = l₁ ++ a :: l₂) : R.next (some a) = some (firstOf l₂ (head i)) := by
  have hring := h.ring i hi
  rw [hl] at hring
  exact segment_first (segment_append.mp hring).2

end Rings

end Ring
