import Mathlib.Data.List.Basic
import Mathlib.Logic.Function.Basic
import Mathlib.Tactic.Lemma

/-!
# Circular doubly linked lists with a sentinel

An intrusive list: every element carries a `next` and a `prev` pointer, and so does the sentinel
the list is reached through.  `Links` holds the pointers of a whole heap of elements, `none`
being the null pointer; a place `none : Option α` is the sentinel.

`Represents R l` says that the pointers form a ring through the sentinel and the elements of `l`
in this order, and that every other element has null pointers.  Appending at the end, unlinking
an element and taking the first off keep it, and do to `l` what their names say.  None of them
meets a null pointer.
-/

namespace Ring

/-- The pointers of the sentinel and of all elements. -/
structure Links (α : Type) where
  next : Option α → Option (Option α)
  prev : Option α → Option (Option α)

variable {α : Type} [DecidableEq α]

namespace Links

/-- A sentinel that points to itself, and elements that point nowhere. -/
def empty : Links α where
  next x := if x = none then some none else none
  prev x := if x = none then some none else none

def setNext (x : Option α) (v : Option (Option α)) (R : Links α) : Links α :=
  { R with next := Function.update R.next x v }

def setPrev (x : Option α) (v : Option (Option α)) (R : Links α) : Links α :=
  { R with prev := Function.update R.prev x v }

/-- Append `a` at the end: `node->next=list; node->prev=list->prev; node->prev->next=node;
list->prev=node`. -/
def append (a : α) (R : Links α) : Option (Links α) :=
  let R := (R.setNext (some a) (some none)).setPrev (some a) (R.prev none)
  match R.prev (some a) with
  | none => none
  | some p => some ((R.setNext p (some (some a))).setPrev none (some (some a)))

/-- Unlink `a`: `node->prev->next=node->next; node->next->prev=node->prev; node->next=0;
node->prev=0`. -/
def unlink (a : α) (R : Links α) : Option (Links α) :=
  match R.prev (some a) with
  | none => none
  | some p =>
    let R := R.setNext p (R.next (some a))
    match R.next (some a) with
    | none => none
    | some q => some (((R.setPrev q (R.prev (some a))).setNext (some a) none).setPrev (some a) none)

/-- Take the first element off: `node=list->next; if(node==list)return 0; list->next=node->next;
list->next->prev=list; node->next=0; node->prev=0`. -/
def takeFirst (R : Links α) : Option (Option α × Links α) :=
  match R.next none with
  | none => none
  | some none => some (none, R)
  | some (some a) =>
    let R := R.setNext none (R.next (some a))
    match R.next none with
    | none => none
    | some q => some (some a,
        ((R.setPrev q (some none)).setNext (some a) none).setPrev (some a) none)

end Links

/-! ## Segments -/

/-- `y` follows `x`. -/
def Linked (R : Links α) (x y : Option α) : Prop := R.next x = some y ∧ R.prev y = some x

/-- The elements of `l` lie between `x` and `y`. -/
def Segment (R : Links α) : Option α → List α → Option α → Prop
  | x, [], y => Linked R x y
  | x, a :: l, y => Linked R x (some a) ∧ Segment R (some a) l y

/-- The ring through the sentinel and `l`; everything else points nowhere. -/
structure Represents (R : Links α) (l : List α) : Prop where
  ring : Segment R none l none
  nodup : l.Nodup
  outside : ∀ a, a ∉ l → R.next (some a) = none ∧ R.prev (some a) = none

omit [DecidableEq α] in
lemma segment_append {R : Links α} {x y : Option α} {l m : List α} {a : α} :
    Segment R x (l ++ a :: m) y ↔ Segment R x l (some a) ∧ Segment R (some a) m y := by
  induction l generalizing x with
  | nil => exact Iff.rfl
  | cons b l ih =>
    rw [List.cons_append, Segment, Segment, ih, and_assoc]

omit [DecidableEq α] in
/-- Following the pointers up to a place leads through one list only. -/
lemma segment_unique_of {R : Links α} {x y : Option α} {l m : List α} (hl : ∀ a ∈ l, y ≠ some a)
    (hm : ∀ a ∈ m, y ≠ some a) (h : Segment R x l y) (h' : Segment R x m y) : l = m := by
  induction l generalizing x m with
  | nil =>
    cases m with
    | nil => rfl
    | cons b m =>
      exact absurd (Option.some.inj (h.1.symm.trans h'.1.1)) (hm b (List.mem_cons_self ..))
  | cons a l ih =>
    cases m with
    | nil => exact absurd (Option.some.inj (h'.1.symm.trans h.1.1)) (hl a (List.mem_cons_self ..))
    | cons b m =>
      obtain rfl : a = b := by simpa using h.1.1.symm.trans h'.1.1
      rw [ih (fun c hc => hl c (List.mem_cons_of_mem _ hc))
        (fun c hc => hm c (List.mem_cons_of_mem _ hc)) h.2 h'.2]

omit [DecidableEq α] in
lemma segment_unique {R : Links α} {x : Option α} {l m : List α} (h : Segment R x l none)
    (h' : Segment R x m none) : l = m :=
  segment_unique_of (fun a _ => (Option.some_ne_none a).symm)
    (fun a _ => (Option.some_ne_none a).symm) h h'

/-- What is in front of the end of a segment. -/
def lastOf (x : Option α) (l : List α) : Option α := l.getLast?.or x

omit [DecidableEq α] in
lemma lastOf_cons (x : Option α) (a : α) (l : List α) : lastOf x (a :: l) = lastOf (some a) l := by
  cases l with
  | nil => rfl
  | cons b l => simp [lastOf, List.getLast?_cons]

omit [DecidableEq α] in
lemma lastOf_mem (x : Option α) (l : List α) : lastOf x l = x ∨ ∃ a ∈ l, lastOf x l = some a := by
  induction l generalizing x with
  | nil => exact .inl rfl
  | cons a l ih =>
    rw [lastOf_cons]
    rcases ih (some a) with h | ⟨b, hb, h⟩
    · exact .inr ⟨a, List.mem_cons_self .., h⟩
    · exact .inr ⟨b, List.mem_cons_of_mem _ hb, h⟩

omit [DecidableEq α] in
lemma some_ne_lastOf {a : α} {l : List α} (h : a ∉ l) : some a ≠ lastOf none l := by
  rcases lastOf_mem none l with h' | ⟨b, hb, h'⟩
  · rw [h']
    exact Option.some_ne_none a
  · rw [h']
    rintro ⟨⟩
    exact h hb

omit [DecidableEq α] in
lemma segment_last {R : Links α} {x y : Option α} {l : List α} (h : Segment R x l y) :
    Linked R (lastOf x l) y := by
  induction l generalizing x with
  | nil => exact h
  | cons a l ih =>
    rw [lastOf_cons]
    exact ih h.2

omit [DecidableEq α] in
/-- A segment only depends on the pointers along it. -/
lemma segment_congr {R R' : Links α} {x y : Option α} {l : List α} (h : Segment R x l y)
    (hx : R'.next x = R.next x) (hl : ∀ a ∈ l, R'.next (some a) = R.next (some a) ∧
      R'.prev (some a) = R.prev (some a)) (hy : R'.prev y = R.prev y) : Segment R' x l y := by
  induction l generalizing x with
  | nil => exact ⟨hx.trans h.1, hy.trans h.2⟩
  | cons a l ih =>
    obtain ⟨hnext, hprev⟩ := hl a (List.mem_cons_self ..)
    exact ⟨⟨hx.trans h.1.1, hprev.trans h.1.2⟩,
      ih h.2 hnext fun b hb => hl b (List.mem_cons_of_mem _ hb)⟩

omit [DecidableEq α] in
/-- A segment whose end is bent to `z`: only the pointers there change. -/
lemma segment_bend {R R' : Links α} {x y z : Option α} {l : List α} (h : Segment R x l y)
    (hnodup : l.Nodup) (hx : ∀ a ∈ l, x ≠ some a)
    (hlink : Linked R' (lastOf x l) z)
    (hnext : ∀ w, w ≠ lastOf x l → (w = x ∨ ∃ a ∈ l, w = some a) → R'.next w = R.next w)
    (hprev : ∀ a ∈ l, R'.prev (some a) = R.prev (some a)) : Segment R' x l z := by
  induction l generalizing x with
  | nil => exact hlink
  | cons a l ih =>
    rw [lastOf_cons] at hlink hnext
    have ha : ∀ b ∈ l, (some a : Option α) ≠ some b := by
      rintro b hb ⟨⟩
      exact (List.nodup_cons.mp hnodup).1 hb
    have hlast : x ≠ lastOf (some a) l := by
      rcases lastOf_mem (some a) l with h' | ⟨b, hb, h'⟩
      · rw [h']
        exact hx a (List.mem_cons_self ..)
      · rw [h']
        exact hx b (List.mem_cons_of_mem _ hb)
    refine ⟨⟨(hnext x hlast (.inl rfl)).trans h.1.1,
      (hprev a (List.mem_cons_self ..)).trans h.1.2⟩, ?_⟩
    refine ih h.2 (List.nodup_cons.mp hnodup).2 ha hlink ?_
      fun b hb => hprev b (List.mem_cons_of_mem _ hb)
    rintro w hw (rfl | ⟨b, hb, rfl⟩)
    · exact hnext _ hw (.inr ⟨a, List.mem_cons_self .., rfl⟩)
    · exact hnext _ hw (.inr ⟨b, List.mem_cons_of_mem _ hb, rfl⟩)

/-! ## Linking and unlinking in a segment -/

omit [DecidableEq α] in
lemma some_ne_lastOf_of {h : Option α} {a : α} {l : List α} (hh : h ≠ some a) (ha : a ∉ l) :
    some a ≠ lastOf h l := by
  rcases lastOf_mem h l with h' | ⟨b, hb, h'⟩
  · rw [h']
    exact hh.symm
  · rw [h']
    rintro ⟨⟩
    exact ha hb

/-- What a segment from `a` to `y` has right behind `a`. -/
def firstOf (l : List α) (y : Option α) : Option α := l.head?.or y

omit [DecidableEq α] in
lemma firstOf_mem (l : List α) (y : Option α) :
    firstOf l y = y ∨ ∃ a ∈ l, firstOf l y = some a := by
  cases l with
  | nil => exact .inl rfl
  | cons a l => exact .inr ⟨a, List.mem_cons_self .., rfl⟩

omit [DecidableEq α] in
lemma some_ne_firstOf {h : Option α} {a : α} {l : List α} (hh : h ≠ some a) (ha : a ∉ l) :
    some a ≠ firstOf l h := by
  rcases firstOf_mem l h with h' | ⟨b, hb, h'⟩
  · rw [h']
    exact hh.symm
  · rw [h']
    rintro ⟨⟩
    exact ha hb

omit [DecidableEq α] in
lemma segment_first {R : Links α} {x y : Option α} {l : List α} (h : Segment R x l y) :
    R.next x = some (firstOf l y) := by
  cases l with
  | nil => exact h.1
  | cons a l => exact h.1.1

/-- The sentinel `h` gets `a` in front of it. -/
lemma segment_link {R R' : Links α} {h : Option α} {l : List α} {a : α} (hs : Segment R h l h)
    (hnodup : l.Nodup) (hh : ∀ b ∈ l, h ≠ some b) (ha : a ∉ l) (hah : h ≠ some a)
    (hnext : ∀ w, R'.next w =
      if w = lastOf h l then some (some a) else if w = some a then some h else R.next w)
    (hprev : ∀ w, R'.prev w =
      if w = h then some (some a) else if w = some a then R.prev h else R.prev w) :
    Segment R' h (l ++ [a]) h := by
  rw [segment_append]
  have hlast : some a ≠ lastOf h l := some_ne_lastOf_of hah ha
  have hne : ∀ b ∈ l, (some b : Option α) ≠ some a := by
    rintro b hb ⟨⟩
    exact ha hb
  refine ⟨segment_bend hs hnodup hh ⟨?_, ?_⟩ ?_ ?_, ?_, ?_⟩
  · rw [hnext, if_pos rfl]
  · rw [hprev, if_neg hah.symm, if_pos rfl, (segment_last hs).2]
  · rintro w hw hmem
    rw [hnext, if_neg hw, if_neg]
    rcases hmem with rfl | ⟨b, hb, rfl⟩
    · exact hah
    · exact hne b hb
  · intro b hb
    rw [hprev, if_neg (hh b hb).symm, if_neg (hne b hb)]
  · rw [hnext, if_neg hlast, if_pos rfl]
  · rw [hprev, if_pos rfl]

/-- The neighbours of `a` get each other. -/
lemma segment_unlink {R R' : Links α} {h : Option α} {l₁ l₂ : List α} {a : α}
    (hs : Segment R h (l₁ ++ a :: l₂) h) (hnodup : (l₁ ++ a :: l₂).Nodup)
    (hh : ∀ b ∈ l₁ ++ a :: l₂, h ≠ some b)
    (hnext : ∀ w, w ≠ some a → R'.next w =
      if w = lastOf h l₁ then some (firstOf l₂ h) else R.next w)
    (hprev : ∀ w, w ≠ some a → R'.prev w =
      if w = firstOf l₂ h then some (lastOf h l₁) else R.prev w) :
    Segment R' h (l₁ ++ l₂) h := by
  obtain ⟨hn₁, hn₂, hdis⟩ := List.nodup_append.mp hnodup
  obtain ⟨ha₂, hn₂⟩ := List.nodup_cons.mp hn₂
  have ha₁ : a ∉ l₁ := fun h' => hdis a h' a (List.mem_cons_self ..) rfl
  have hha : h ≠ some a := hh a (List.mem_append_right _ (List.mem_cons_self ..))
  have hh₁ : ∀ b ∈ l₁, h ≠ some b := fun b hb => hh b (List.mem_append_left _ hb)
  have hne : ∀ b ∈ l₁ ++ l₂, (some b : Option α) ≠ some a := by
    rintro b hb ⟨⟩
    exact (List.mem_append.mp hb).elim ha₁ ha₂
  obtain ⟨hs₁, hs₂⟩ := segment_append.mp hs
  have hpa := (some_ne_lastOf_of hha ha₁).symm
  have hqa := (some_ne_firstOf hha ha₂).symm
  -- the first part ends at what followed `a`
  have hbend : Segment R' h l₁ (firstOf l₂ h) := by
    refine segment_bend hs₁ hn₁ hh₁ ⟨?_, ?_⟩ ?_ ?_
    · rw [hnext _ hpa, if_pos rfl]
    · rw [hprev _ hqa, if_pos rfl]
    · rintro w hw hmem
      rw [hnext, if_neg hw]
      rcases hmem with rfl | ⟨b, hb, rfl⟩
      · exact hha
      · exact hne b (List.mem_append_left _ hb)
    · intro b hb
      rw [hprev _ (hne b (List.mem_append_left _ hb)), if_neg]
      refine some_ne_firstOf (hh₁ b hb) fun hb₂ => ?_
      exact hdis b hb b (List.mem_cons_of_mem _ hb₂) rfl
  cases l₂ with
  | nil =>
    rw [List.append_nil]
    exact hbend
  | cons b m =>
    have hkeep : ∀ c ∈ b :: m, R'.next (some c) = R.next (some c) := by
      intro c hc
      have hhc := hh c (List.mem_append_right _ (List.mem_cons_of_mem _ hc))
      rw [hnext _ (hne c (List.mem_append_right _ hc)), if_neg]
      exact some_ne_lastOf_of hhc fun hc₁ => hdis c hc₁ c (List.mem_cons_of_mem _ hc) rfl
    rw [segment_append]
    refine ⟨hbend, segment_congr hs₂.2 (hkeep b (List.mem_cons_self ..)) ?_ ?_⟩
    · intro c hc
      refine ⟨hkeep c (List.mem_cons_of_mem _ hc), ?_⟩
      rw [hprev _ (hne c (List.mem_append_right _ (List.mem_cons_of_mem _ hc))), if_neg]
      rintro ⟨⟩
      exact (List.nodup_cons.mp hn₂).1 hc
    · have hhb := hh b (List.mem_append_right _ (List.mem_cons_of_mem _ (List.mem_cons_self ..)))
      rw [hprev _ hha]
      exact if_neg hhb

/-! ## The operations -/

omit [DecidableEq α] in
lemma represents_empty : Represents (Links.empty : Links α) [] where
  ring := ⟨by simp [Links.empty], by simp [Links.empty]⟩
  nodup := List.nodup_nil
  outside := fun a _ => by simp [Links.empty]

/-- Appending an element that is not in the list. -/
lemma represents_append {R : Links α} {l : List α} (h : Represents R l) {a : α} (ha : a ∉ l) :
    ∃ R', R.append a = some R' ∧ Represents R' (l ++ [a]) := by
  have hlast := segment_last h.ring
  let R₁ := (R.setNext (some a) (some none)).setPrev (some a) (R.prev none)
  let R' := (R₁.setNext (lastOf none l) (some (some a))).setPrev none (some (some a))
  have happend : R.append a = some R' := by
    unfold Links.append
    have hp : R₁.prev (some a) = some (lastOf none l) := by
      change Function.update R.prev (some a) (R.prev none) (some a) = _
      rw [Function.update_self, hlast.2]
    change (match R₁.prev (some a) with
      | none => none
      | some p => some ((R₁.setNext p (some (some a))).setPrev none (some (some a)))) = _
    rw [hp]
  have hnext : ∀ w, R'.next w =
      if w = lastOf none l then some (some a) else if w = some a then some none else R.next w := by
    intro w
    change Function.update (Function.update R.next (some a) (some none)) _ _ w = _
    simp only [Function.update_apply]
  have hprev : ∀ w, R'.prev w =
      if w = none then some (some a) else if w = some a then R.prev none else R.prev w := by
    intro w
    change Function.update (Function.update R.prev (some a) (R.prev none)) _ _ w = _
    simp only [Function.update_apply]
  refine ⟨R', happend, ?_, ?_, ?_⟩
  · exact segment_link h.ring h.nodup (fun b _ => (Option.some_ne_none b).symm) ha
      (Option.some_ne_none a).symm hnext hprev
  · rw [List.nodup_append]
    refine ⟨h.nodup, by simp, ?_⟩
    intro b hb c hc hbc
    rw [List.mem_singleton.mp hc] at hbc
    exact ha (hbc ▸ hb)
  · intro b hb
    rw [List.mem_append, List.mem_singleton, not_or] at hb
    have hbl : some b ≠ lastOf none l := some_ne_lastOf hb.1
    have hba : some b ≠ some a := fun h' => hb.2 (Option.some.inj h')
    rw [hnext, hprev, if_neg hbl, if_neg hba, if_neg (Option.some_ne_none b), if_neg hba]
    exact h.outside b hb.1

/-- Unlinking an element of the list. -/
lemma represents_unlink {R : Links α} {l : List α} (h : Represents R l) {a : α} (ha : a ∈ l) :
    ∃ R', R.unlink a = some R' ∧ Represents R' (l.erase a) := by
  obtain ⟨l₁, l₂, rfl⟩ := List.append_of_mem ha
  obtain ⟨hn₁, hn₂, hdis⟩ := List.nodup_append.mp h.nodup
  have ha₁ : a ∉ l₁ := fun h' => hdis a h' a (List.mem_cons_self ..) rfl
  obtain ⟨hs₁, hs₂⟩ := segment_append.mp h.ring
  have hlast := segment_last hs₁
  have hfirst := segment_first hs₂
  have hpa : lastOf none l₁ ≠ some a := (some_ne_lastOf ha₁).symm
  let R₁ := R.setNext (lastOf none l₁) (R.next (some a))
  let R' := ((R₁.setPrev (firstOf l₂ none) (R₁.prev (some a))).setNext (some a) none).setPrev
    (some a) none
  have hunlink : R.unlink a = some R' := by
    have hq : R₁.next (some a) = some (firstOf l₂ none) := by
      change Function.update R.next _ _ (some a) = _
      rw [Function.update_of_ne hpa.symm, hfirst]
    unfold Links.unlink
    rw [hlast.2]
    change (match R₁.next (some a) with
      | none => none
      | some q => some (((R₁.setPrev q (R₁.prev (some a))).setNext (some a) none).setPrev
          (some a) none)) = _
    rw [hq]
  have hnext : ∀ w, R'.next w = if w = some a then none
      else if w = lastOf none l₁ then some (firstOf l₂ none) else R.next w := by
    intro w
    change Function.update (Function.update R.next _ (R.next (some a))) _ _ w = _
    simp only [Function.update_apply, hfirst]
  have hprev : ∀ w, R'.prev w = if w = some a then none
      else if w = firstOf l₂ none then some (lastOf none l₁) else R.prev w := by
    intro w
    change Function.update (Function.update R.prev _ (R.prev (some a))) _ _ w = _
    simp only [Function.update_apply, hlast.2]
  have herase : (l₁ ++ a :: l₂).erase a = l₁ ++ l₂ := by
    rw [List.erase_append_right _ ha₁, List.erase_cons_head]
  refine ⟨R', hunlink, ?_, h.nodup.erase a, ?_⟩
  · rw [herase]
    refine segment_unlink h.ring h.nodup (fun b _ => (Option.some_ne_none b).symm) ?_ ?_
    · intro w hw
      rw [hnext, if_neg hw]
    · intro w hw
      rw [hprev, if_neg hw]
  · rw [herase]
    intro b hb
    rw [hnext, hprev]
    by_cases hba : (some b : Option α) = some a
    · rw [if_pos hba, if_pos hba]
      exact ⟨rfl, rfl⟩
    rw [List.mem_append, not_or] at hb
    have hbq : some b ≠ firstOf l₂ none := some_ne_firstOf (Option.some_ne_none b).symm hb.2
    rw [if_neg hba, if_neg (some_ne_lastOf hb.1), if_neg hba, if_neg hbq]
    refine h.outside b fun h' => ?_
    rcases List.mem_append.mp h' with h' | h'
    · exact hb.1 h'
    · rcases List.mem_cons.mp h' with rfl | h'
      · exact hba rfl
      · exact hb.2 h'

/-- There is no first element to take off. -/
lemma represents_takeFirst_nil {R : Links α} (h : Represents R []) :
    R.takeFirst = some (none, R) := by
  unfold Links.takeFirst
  rw [h.ring.1]

/-- Taking the first element off. -/
lemma represents_takeFirst_cons {R : Links α} {a : α} {l : List α} (h : Represents R (a :: l)) :
    ∃ R', R.takeFirst = some (some a, R') ∧ Represents R' l := by
  obtain ⟨R', hunlink, hR'⟩ := represents_unlink h (List.mem_cons_self ..)
  rw [List.erase_cons_head] at hR'
  refine ⟨R', ?_, hR'⟩
  -- with the sentinel in front of it, unlinking the first element does the same
  let R₁ := R.setNext none (R.next (some a))
  have hfirst : R₁.next none = R.next (some a) := by
    change Function.update R.next none (R.next (some a)) none = _
    rw [Function.update_self]
  have hnext : R₁.next (some a) = R.next (some a) := by
    change Function.update R.next none (R.next (some a)) (some a) = _
    rw [Function.update_of_ne (Option.some_ne_none a)]
  have hprev : R₁.prev (some a) = some none := h.ring.1.2
  have hsame : R.takeFirst = (R.unlink a).map fun R' => (some a, R') := by
    unfold Links.takeFirst Links.unlink
    rw [h.ring.1.1, h.ring.1.2]
    change (match R₁.next none with
      | none => none
      | some q => some (some a,
          ((R₁.setPrev q (some none)).setNext (some a) none).setPrev (some a) none)) =
      Option.map (fun R' => (some a, R')) (match R₁.next (some a) with
        | none => none
        | some q => some (((R₁.setPrev q (R₁.prev (some a))).setNext (some a) none).setPrev
            (some a) none))
    rw [hfirst, hnext, hprev]
    cases R.next (some a) <;> rfl
  rw [hsame, hunlink]
  rfl

end Ring
