import Mathlib.Algebra.BigOperators.Group.List.Basic
import Mathlib.Algebra.Order.Group.Nat
import Mathlib.Algebra.Ring.Nat
import Mathlib.Data.Nat.Find
import Mathlib.Tactic.Lemma

/-!
# Loops that transfer a whole buffer

A full transfer moves a number of units by calls that may move only some of them: it asks each
time for what is missing.  There are two ways to write the loop.  `strict` tests before each call
whether anything is missing and takes a call that moves nothing for a failure; `insistent` calls
first and tests then, and goes on after a call that moves nothing.  Neither loop sees an
interruption: the call is made again until it returns something else, so a loop that calls first
has to wait for such a result also when there is nothing to move.

What the calls return is an infinite sequence, of which a loop that returns has seen the front.
So the loops are functions of a list of results, and `none` means that there would be another
call; `Returns` is about longer and longer fronts.

`loops_agree_iff` says when the two loops return the same on a sequence that ends in an error or in
calls that move nothing.
-/

/-- What a call returns: that it can move so many units, that it was interrupted, or an error. -/
inductive CallKind
  | moved (n : ℕ)
  | intr
  | error
  deriving DecidableEq, Repr

def CallKind.size : CallKind → ℕ
  | .moved n => n
  | .intr | .error => 0

/-- A transfer of `len` units of type `α` by calls with results of type `ρ`. -/
structure FullTransfer (ρ α : Type*) where
  len : ℕ
  kind : ρ → CallKind
  /-- The units that are moved by a call at an offset. -/
  units : ρ → ℕ → List α
  length_units : ∀ r off, (units r off).length = min (kind r).size (len - off)

namespace FullTransfer

variable {ρ α β γ : Type*} (T : FullTransfer ρ α) {r : ρ} {rs rs' : List ρ} {got got' : List α}
  {ok : Bool}

/-! ## The loops -/

/-- The loop that gives up when nothing is moved: whether everything has been moved, and what. -/
def strict : List α → List ρ → Option (Bool × List α)
  | got, [] => if got.length < T.len then none else some (true, got)
  | got, r :: rs =>
    if got.length < T.len then
      match T.kind r with
      | .moved 0 => some (false, got)
      | .moved (_ + 1) => strict (got ++ T.units r got.length) rs
      | .intr => strict got rs
      | .error => some (false, got)
    else some (true, got)

/-- The loop that goes on when nothing is moved.  An interrupted call is made again before the loop
tests whether anything is missing. -/
def insistent : List α → List ρ → Option (Bool × List α)
  | _, [] => none
  | got, r :: rs =>
    match T.kind r with
    | .moved _ =>
      if (got ++ T.units r got.length).length < T.len then
        insistent (got ++ T.units r got.length) rs
      else some (true, got ++ T.units r got.length)
    | .intr => insistent got rs
    | .error => some (false, got)

/-! ## What is moved -/

/-- What has been moved after one more call. -/
def next (got : List α) (r : ρ) : List α := got ++ T.units r got.length

/-- What has been moved after calls none of which made the loop return. -/
def gather (got : List α) (rs : List ρ) : List α := rs.foldl T.next got

/-- How much calls can move at most. -/
def total (rs : List ρ) : ℕ := (rs.map fun r => (T.kind r).size).sum

/-- Results at which `strict` gives up. -/
def Stops (r : ρ) : Prop := T.kind r = .error ∨ T.kind r = .moved 0

instance (r : ρ) : Decidable (T.Stops r) :=
  inferInstanceAs (Decidable (T.kind r = .error ∨ T.kind r = .moved 0))

variable {T}

lemma total_cons : T.total (r :: rs) = (T.kind r).size + T.total rs := by
  rw [total, List.map_cons, List.sum_cons, ← total]

lemma total_append : T.total (rs ++ rs') = T.total rs + T.total rs' := by
  rw [total, List.map_append, List.sum_append, ← total, ← total]

lemma length_next (h : got.length ≤ T.len) :
    (T.next got r).length = min (got.length + (T.kind r).size) T.len := by
  rw [next, List.length_append, T.length_units]
  omega

lemma next_of_size (h : (T.kind r).size = 0) : T.next got r = got := by
  have hunits : T.units r got.length = [] := by
    rw [← List.length_eq_zero_iff, T.length_units, h, Nat.zero_min]
  rw [next, hunits, List.append_nil]

/-- When everything has been moved, further calls move nothing. -/
lemma gather_full (h : T.len ≤ got.length) : T.gather got rs = got := by
  induction rs with
  | nil => rfl
  | cons r rs ih =>
    have hunits : T.units r got.length = [] := by
      rw [← List.length_eq_zero_iff, T.length_units, Nat.sub_eq_zero_of_le h, Nat.min_zero]
    rw [gather, List.foldl_cons, next, hunits, List.append_nil, ← gather, ih]

lemma not_stops_of_intr (h : T.kind r = .intr) : ¬T.Stops r := by
  rw [Stops, h]
  simp

lemma not_stops_of_moved {n : ℕ} (h : T.kind r = .moved n) (hn : n ≠ 0) : ¬T.Stops r := by
  rw [Stops, h]
  simpa using hn

/-! ## The strict loop -/

lemma strict_done (h : T.len ≤ got.length) (rs : List ρ) : T.strict got rs = some (true, got) := by
  cases rs with
  | nil => exact if_neg (Nat.not_lt.mpr h)
  | cons r rs => exact if_neg (Nat.not_lt.mpr h)

lemma strict_cons_of_stops (h : got.length < T.len) (hr : T.Stops r) :
    T.strict got (r :: rs) = some (false, got) := by
  rw [strict, if_pos h]
  rcases hr with hr | hr <;> rw [hr]

lemma strict_cons (h : got.length < T.len) (hr : ¬T.Stops r) :
    T.strict got (r :: rs) = T.strict (T.next got r) rs := by
  rw [strict, if_pos h]
  cases hk : T.kind r with
  | moved n =>
    cases n with
    | zero => exact absurd (.inr hk) hr
    | succ n => rfl
  | intr => rw [next_of_size (by rw [hk]; rfl)]
  | error => exact absurd (.inl hk) hr

/-- Without a stop the loop ends when everything has been moved. -/
lemma strict_complete (h : got.length ≤ T.len) (hrs : ∀ r ∈ rs, ¬T.Stops r)
    (htotal : T.len ≤ got.length + T.total rs) :
    T.strict got rs = some (true, T.gather got rs) := by
  induction rs generalizing got with
  | nil => exact strict_done htotal []
  | cons r rs ih =>
    rcases Nat.lt_or_ge got.length T.len with hlt | hge
    · have hnext := length_next (r := r) h
      rw [total_cons] at htotal
      rw [strict_cons hlt (hrs r (List.mem_cons_self ..))]
      exact ih (by omega) (fun r hr => hrs r (List.mem_cons_of_mem _ hr)) (by omega)
    · rw [strict_done hge, gather_full hge]

/-- A stop before that is a failure. -/
lemma strict_stopped (h : got.length ≤ T.len) (hrs : ∀ r ∈ rs, ¬T.Stops r)
    (htotal : got.length + T.total rs < T.len) (hr : T.Stops r) :
    T.strict got (rs ++ [r]) = some (false, T.gather got rs) := by
  induction rs generalizing got with
  | nil => exact strict_cons_of_stops htotal hr
  | cons r' rs ih =>
    have hnext := length_next (r := r') h
    rw [total_cons] at htotal
    rw [List.cons_append, strict_cons (by omega) (hrs r' (List.mem_cons_self ..))]
    exact ih (by omega) (fun r hr => hrs r (List.mem_cons_of_mem _ hr)) (by omega)

lemma strict_append (h : T.strict got rs = some (ok, got')) (rs' : List ρ) :
    T.strict got (rs ++ rs') = some (ok, got') := by
  induction rs generalizing got with
  | nil =>
    rw [strict] at h
    split at h
    · cases h
    case isFalse hfull =>
      cases h
      exact strict_done (Nat.le_of_not_lt hfull) rs'
  | cons r rs ih =>
    rcases Nat.lt_or_ge got.length T.len with hlt | hge
    · by_cases hr : T.Stops r
      · rw [strict_cons_of_stops hlt hr] at h
        rw [List.cons_append, strict_cons_of_stops hlt hr, h]
      · rw [strict_cons hlt hr] at h
        rw [List.cons_append, strict_cons hlt hr]
        exact ih h
    · rw [strict_done hge] at h
      rw [strict_done hge, h]

/-- What the loop returns has been moved by the calls it made, and is everything if it says so. -/
lemma strict_some (h : T.strict got rs = some (ok, got')) (hgot : got.length ≤ T.len) :
    (ok = true ↔ got'.length = T.len) ∧ ∃ rs₁, rs₁ <+: rs ∧ got' = T.gather got rs₁ := by
  induction rs generalizing got with
  | nil =>
    rw [strict] at h
    split at h
    · cases h
    case isFalse hfull =>
      cases h
      exact ⟨by simp; omega, [], List.prefix_refl _, rfl⟩
  | cons r rs ih =>
    rcases Nat.lt_or_ge got.length T.len with hlt | hge
    · by_cases hr : T.Stops r
      · rw [strict_cons_of_stops hlt hr] at h
        cases h
        exact ⟨by simp; omega, [], List.nil_prefix, rfl⟩
      · rw [strict_cons hlt hr] at h
        have hnext := length_next (r := r) hgot
        obtain ⟨hok, rs₁, hrs₁, rfl⟩ := ih h (by omega)
        exact ⟨hok, r :: rs₁, List.cons_prefix_cons.mpr ⟨rfl, hrs₁⟩, rfl⟩
    · rw [strict_done hge] at h
      cases h
      exact ⟨by simp; omega, [], List.nil_prefix, rfl⟩

/-! ## The insistent loop -/

lemma insistent_cons_of_error (hr : T.kind r = .error) :
    T.insistent got (r :: rs) = some (false, got) := by
  rw [insistent, hr]

lemma insistent_cons_of_intr (hr : T.kind r = .intr) :
    T.insistent got (r :: rs) = T.insistent got rs := by
  rw [insistent, hr]

lemma insistent_cons_of_moved {n : ℕ} (hr : T.kind r = .moved n) :
    T.insistent got (r :: rs) =
      if (T.next got r).length < T.len then T.insistent (T.next got r) rs
      else some (true, T.next got r) := by
  rw [insistent, hr]
  rfl

/-- While something is missing, an interruption is like a call that moves nothing. -/
lemma insistent_cons (h : got.length < T.len) (hr : T.kind r ≠ .error) :
    T.insistent got (r :: rs) =
      if (T.next got r).length < T.len then T.insistent (T.next got r) rs
      else some (true, T.next got r) := by
  cases hk : T.kind r with
  | moved n => exact insistent_cons_of_moved hk
  | intr => rw [insistent_cons_of_intr hk, next_of_size (by rw [hk]; rfl), if_pos h]
  | error => exact absurd hk hr

lemma insistent_complete (h : got.length < T.len) (hrs : ∀ r ∈ rs, T.kind r ≠ .error)
    (htotal : T.len ≤ got.length + T.total rs) :
    T.insistent got rs = some (true, T.gather got rs) := by
  induction rs generalizing got with
  | nil => exact absurd htotal (Nat.not_le.mpr h)
  | cons r rs ih =>
    have hnext := length_next (r := r) h.le
    rw [total_cons] at htotal
    rw [insistent_cons h (hrs r (List.mem_cons_self ..)), gather, List.foldl_cons, ← gather]
    split
    case isTrue hlt =>
      exact ih hlt (fun r hr => hrs r (List.mem_cons_of_mem _ hr)) (by omega)
    case isFalse hfull => rw [gather_full (Nat.le_of_not_lt hfull)]

/-- Without an error and before everything has been moved there is always another call. -/
lemma insistent_none (h : got.length < T.len) (hrs : ∀ r ∈ rs, T.kind r ≠ .error)
    (htotal : got.length + T.total rs < T.len) : T.insistent got rs = none := by
  induction rs generalizing got with
  | nil => rfl
  | cons r rs ih =>
    have hnext := length_next (r := r) h.le
    rw [total_cons] at htotal
    rw [insistent_cons h (hrs r (List.mem_cons_self ..)), if_pos (by omega)]
    exact ih (by omega) (fun r hr => hrs r (List.mem_cons_of_mem _ hr)) (by omega)

lemma insistent_error (h : got.length < T.len) (hrs : ∀ r ∈ rs, T.kind r ≠ .error)
    (htotal : got.length + T.total rs < T.len) (hr : T.kind r = .error) :
    T.insistent got (rs ++ [r]) = some (false, T.gather got rs) := by
  induction rs generalizing got with
  | nil => exact insistent_cons_of_error hr
  | cons r' rs ih =>
    have hnext := length_next (r := r') h.le
    rw [total_cons] at htotal
    rw [List.cons_append, insistent_cons h (hrs r' (List.mem_cons_self ..)), if_pos (by omega)]
    exact ih (by omega) (fun r hr => hrs r (List.mem_cons_of_mem _ hr)) (by omega)

lemma insistent_append (h : T.insistent got rs = some (ok, got')) (rs' : List ρ) :
    T.insistent got (rs ++ rs') = some (ok, got') := by
  induction rs generalizing got with
  | nil => cases h
  | cons r rs ih =>
    rw [List.cons_append]
    cases hr : T.kind r with
    | error =>
      rw [insistent_cons_of_error hr] at h
      rw [insistent_cons_of_error hr, h]
    | intr =>
      rw [insistent_cons_of_intr hr] at h
      rw [insistent_cons_of_intr hr, ih h]
    | moved n =>
      rw [insistent_cons_of_moved hr] at h
      rw [insistent_cons_of_moved hr]
      split at h
      case isTrue hlt => rw [if_pos hlt, ih h]
      case isFalse hfull => rw [if_neg hfull, h]

/-- The same about the insistent loop, which may say of nothing that it has not been moved. -/
lemma insistent_some (h : T.insistent got rs = some (ok, got')) (hgot : got.length ≤ T.len) :
    (ok = true → got'.length = T.len) ∧ (got.length < T.len → ok = false → got'.length ≠ T.len) ∧
      ∃ rs₁, rs₁ <+: rs ∧ got' = T.gather got rs₁ := by
  induction rs generalizing got with
  | nil => cases h
  | cons r rs ih =>
    cases hr : T.kind r with
    | error =>
      rw [insistent_cons_of_error hr] at h
      cases h
      exact ⟨by simp, fun hlt _ => hlt.ne, [], List.nil_prefix, rfl⟩
    | intr =>
      rw [insistent_cons_of_intr hr] at h
      obtain ⟨hall, hfew, rs₁, hrs₁, rfl⟩ := ih h hgot
      refine ⟨hall, hfew, r :: rs₁, List.cons_prefix_cons.mpr ⟨rfl, hrs₁⟩, ?_⟩
      rw [gather, gather, List.foldl_cons, next_of_size (by rw [hr]; rfl)]
    | moved n =>
      rw [insistent_cons_of_moved hr] at h
      have hnext := length_next (r := r) hgot
      split at h
      case isTrue hlt =>
        obtain ⟨hall, hfew, rs₁, hrs₁, rfl⟩ := ih h hlt.le
        exact ⟨hall, fun _ => hfew hlt, r :: rs₁, List.cons_prefix_cons.mpr ⟨rfl, hrs₁⟩, rfl⟩
      case isFalse hfull =>
        cases h
        exact ⟨fun _ => by omega, by simp, [r], List.cons_prefix_cons.mpr ⟨rfl, List.nil_prefix⟩,
          rfl⟩

/-! ## Sequences of results -/

section Sequence

variable {c : ℕ → ρ} {k k' : ℕ} {b b' : β} {f : List ρ → Option β}

/-- The results of the first calls. -/
def front (c : ℕ → ρ) (k : ℕ) : List ρ := (List.range k).map c

/-- A loop returns after some calls. -/
def Returns (f : List ρ → Option β) (c : ℕ → ρ) (b : β) : Prop := ∃ k, f (front c k) = some b

variable (T) in
/-- The sequence ends in an error or in calls that move nothing. -/
def Ends (c : ℕ → ρ) : Prop := ∃ k, T.kind (c k) = .error ∨ ∀ i, k ≤ i → T.kind (c i) = .moved 0

variable (T) in
/-- The loops say the same. -/
def Agree (c : ℕ → ρ) : Prop :=
  ∃ ok got got', Returns (T.strict []) c (ok, got) ∧ Returns (T.insistent []) c (ok, got')

variable (T) in
/-- The first result that is not an interruption. -/
def Answer (c : ℕ → ρ) (k : ℕ) : Prop := (∀ i < k, T.kind (c i) = .intr) ∧ T.kind (c k) ≠ .intr

variable (T) in
/-- All units come before the first call that moves nothing and the first error, or an error comes
before all units have come; and the first answer to a transfer of nothing is not an error. -/
structure Settled (c : ℕ → ρ) : Prop where
  first : T.len = 0 → ∀ k, T.Answer c k → T.kind (c k) ≠ .error
  settled : (∃ k, (∀ i < k, ¬T.Stops (c i)) ∧ T.len ≤ T.total (front c k)) ∨
    ∃ k, T.kind (c k) = .error ∧ T.total (front c k) < T.len

lemma front_succ (c : ℕ → ρ) (k : ℕ) : front c (k + 1) = front c k ++ [c k] := by
  rw [front, List.range_succ, List.map_append, List.map_singleton, ← front]

lemma front_prefix (c : ℕ → ρ) (h : k ≤ k') : front c k <+: front c k' := by
  induction k', h using Nat.le_induction with
  | base => exact List.prefix_refl _
  | succ k' _ ih =>
    rw [front_succ]
    exact ih.trans (List.prefix_append _ _)

lemma forall_front {P : ρ → Prop} (h : ∀ i < k, P (c i)) : ∀ r ∈ front c k, P r := by
  intro r hr
  obtain ⟨i, hi, rfl⟩ := List.mem_map.mp hr
  exact h i (List.mem_range.mp hi)

lemma total_front_le (T : FullTransfer ρ α) (c : ℕ → ρ) (h : k ≤ k') :
    T.total (front c k) ≤ T.total (front c k') := by
  obtain ⟨rest, hrest⟩ := front_prefix c h
  rw [← hrest, total_append]
  exact Nat.le_add_right _ _

/-- A loop that ignores what comes after its return returns once. -/
lemma Returns.unique (hf : ∀ {rs b}, f rs = some b → ∀ rs', f (rs ++ rs') = some b)
    (h : Returns f c b) (h' : Returns f c b') : b = b' := by
  obtain ⟨k, hk⟩ := h
  obtain ⟨k', hk'⟩ := h'
  rcases Nat.le_total k k' with hle | hle
  · obtain ⟨rest, hrest⟩ := front_prefix c hle
    rw [← hrest, hf hk] at hk'
    exact Option.some.inj hk'
  · obtain ⟨rest, hrest⟩ := front_prefix c hle
    rw [← hrest, hf hk'] at hk
    exact (Option.some.inj hk).symm

lemma Returns.map {g : β → γ} (h : Returns f c b) : Returns (fun rs => (f rs).map g) c (g b) := by
  obtain ⟨k, hk⟩ := h
  exact ⟨k, Option.map_eq_some_iff.mpr ⟨b, hk, rfl⟩⟩

lemma Returns.of_map {g : β → γ} {d : γ} (h : Returns (fun rs => (f rs).map g) c d) :
    ∃ b, Returns f c b ∧ g b = d := by
  obtain ⟨k, hk⟩ := h
  obtain ⟨b, hb, hd⟩ := Option.map_eq_some_iff.mp hk
  exact ⟨b, ⟨k, hb⟩, hd⟩

/-! ## When the loops return -/

/-- Everything comes before the first stop. -/
lemma strict_returns_true (h : ∀ i < k, ¬T.Stops (c i)) (htotal : T.len ≤ T.total (front c k)) :
    ∃ got, Returns (T.strict []) c (true, got) :=
  ⟨_, k, strict_complete (Nat.zero_le _) (forall_front h) (by rwa [List.length_nil, Nat.zero_add])⟩

/-- Of the calls with a property there is a first. -/
lemma exists_first {P : ℕ → Prop} (h : P k) : ∃ j, j ≤ k ∧ P j ∧ ∀ i < j, ¬P i := by
  classical
  have hex : ∃ k, P k := ⟨k, h⟩
  exact ⟨Nat.find hex, Nat.find_min' hex h, Nat.find_spec hex, fun i hi => Nat.find_min hex hi⟩

/-- A stop comes before everything has come. -/
lemma strict_returns_false (hk : T.Stops (c k)) (htotal : T.total (front c k) < T.len) :
    ∃ got, Returns (T.strict []) c (false, got) := by
  obtain ⟨j, hj, hstop, hfirst⟩ := exists_first (P := fun i => T.Stops (c i)) hk
  have hlt := (total_front_le T c hj).trans_lt htotal
  refine ⟨T.gather [] (front c j), j + 1, ?_⟩
  rw [front_succ]
  exact strict_stopped (Nat.zero_le _) (forall_front hfirst)
    (by rwa [List.length_nil, Nat.zero_add]) hstop

lemma insistent_returns_true (hlen : 0 < T.len) (h : ∀ i < k, T.kind (c i) ≠ .error)
    (htotal : T.len ≤ T.total (front c k)) : ∃ got, Returns (T.insistent []) c (true, got) :=
  ⟨_, k, insistent_complete hlen (forall_front h) (by rwa [List.length_nil, Nat.zero_add])⟩

lemma insistent_returns_false (hk : T.kind (c k) = .error) (htotal : T.total (front c k) < T.len) :
    ∃ got, Returns (T.insistent []) c (false, got) := by
  obtain ⟨j, hj, herror, hfirst⟩ := exists_first (P := fun i => T.kind (c i) = .error) hk
  have hlt := (total_front_le T c hj).trans_lt htotal
  refine ⟨T.gather [] (front c j), j + 1, ?_⟩
  rw [front_succ]
  exact insistent_error (Nat.zero_lt_of_lt hlt) (forall_front hfirst)
    (by rwa [List.length_nil, Nat.zero_add]) herror

/-- Interruptions in front of other results do not show. -/
lemma insistent_interrupted (hrs : ∀ r ∈ rs, T.kind r = .intr) :
    T.insistent got (rs ++ rs') = T.insistent got rs' := by
  induction rs with
  | nil => rfl
  | cons r rs ih =>
    rw [List.cons_append, insistent_cons_of_intr (hrs r (List.mem_cons_self ..))]
    exact ih fun r hr => hrs r (List.mem_cons_of_mem _ hr)

/-- A transfer of nothing takes its verdict from the first answer. -/
lemma insistent_returns_nothing (hlen : T.len = 0) (hk : T.Answer c k) :
    ∃ got, Returns (T.insistent []) c (decide (T.kind (c k) ≠ .error), got) := by
  obtain ⟨hintr, hanswer⟩ := hk
  have hfront : T.insistent [] (front c (k + 1)) = T.insistent [] [c k] := by
    rw [front_succ, insistent_interrupted (forall_front hintr)]
  cases hc : T.kind (c k) with
  | error =>
    refine ⟨[], k + 1, hfront.trans ?_⟩
    exact insistent_cons_of_error hc
  | intr => exact absurd hc hanswer
  | moved n =>
    refine ⟨T.next [] (c k), k + 1, hfront.trans ?_⟩
    exact (insistent_cons_of_moved hc).trans (if_neg (by omega))

/-- The insistent loop fails only at an error that comes before everything has come. -/
lemma error_of_returns_false (hlen : 0 < T.len) (h : Returns (T.insistent []) c (false, got)) :
    ∃ k, T.kind (c k) = .error ∧ T.total (front c k) < T.len := by
  by_contra hnone
  have herror : ∀ k, T.kind (c k) = .error → T.len ≤ T.total (front c k) := fun k hk =>
    Nat.le_of_not_lt fun hlt => hnone ⟨k, hk, hlt⟩
  by_cases hall : ∃ k, T.len ≤ T.total (front c k)
  · obtain ⟨k, hk⟩ := hall
    obtain ⟨j, -, htotal, hfirst⟩ := exists_first (P := fun k => T.len ≤ T.total (front c k)) hk
    obtain ⟨got', htrue⟩ := insistent_returns_true hlen
      (fun i hi he => hfirst i hi (herror i he)) htotal
    have heq := h.unique insistent_append htrue
    cases heq
  · obtain ⟨k, hk⟩ := h
    have hmore : T.insistent [] (front c k) = none := by
      apply insistent_none (show ([] : List α).length < T.len from hlen)
        (forall_front fun i _ he => hall ⟨i, herror i he⟩)
      rw [List.length_nil, Nat.zero_add]
      exact Nat.lt_of_not_le fun hle => hall ⟨k, hle⟩
    rw [hmore] at hk
    cases hk

/-- On a sequence that ends there is a stop. -/
lemma Ends.stops (h : T.Ends c) : ∃ k, T.Stops (c k) := by
  obtain ⟨k, hk | hk⟩ := h
  · exact ⟨k, .inl hk⟩
  · exact ⟨k, .inr (hk k (Nat.le_refl k))⟩

/-- On a sequence that ends some call is answered. -/
lemma Ends.answer (h : T.Ends c) : ∃ k, T.Answer c k := by
  obtain ⟨k, hk⟩ := h.stops
  have hne : T.kind (c k) ≠ .intr := by
    intro hintr
    exact not_stops_of_intr hintr hk
  obtain ⟨j, -, hj, hfirst⟩ := exists_first (P := fun i => T.kind (c i) ≠ .intr) hne
  exact ⟨j, fun i hi => not_not.mp (hfirst i hi), hj⟩

/-- **The two loops.**  On a sequence that ends in an error or in calls that move nothing, the
loops say the same exactly if the sequence is settled. -/
theorem loops_agree_iff (hc : T.Ends c) : T.Agree c ↔ T.Settled c := by
  obtain ⟨k, hk⟩ := hc.stops
  obtain ⟨j, -, hstop, hfirst⟩ := exists_first (P := fun i => T.Stops (c i)) hk
  constructor
  · rintro ⟨ok, got, got', hstrict, hinsistent⟩
    refine ⟨?_, ?_⟩
    · intro hlen k₀ hk₀
      obtain ⟨got₁, htrue⟩ := strict_returns_true (k := 0) (c := c) (T := T)
        (fun i hi => absurd hi (Nat.not_lt_zero i)) (by omega)
      obtain ⟨got₂, hnothing⟩ := insistent_returns_nothing hlen hk₀
      have hok := hstrict.unique strict_append htrue
      have hok' := hinsistent.unique insistent_append hnothing
      cases hok
      simpa using (congrArg Prod.fst hok').symm
    · rcases Nat.lt_or_ge (T.total (front c j)) T.len with hlt | hge
      · obtain ⟨got₁, hfalse⟩ := strict_returns_false hstop hlt
        have hok := hstrict.unique strict_append hfalse
        cases hok
        exact .inr (error_of_returns_false (Nat.zero_lt_of_lt hlt) hinsistent)
      · exact .inl ⟨j, hfirst, hge⟩
  · rintro ⟨hnothing, ⟨k, hns, htotal⟩ | ⟨k, herror, htotal⟩⟩
    · obtain ⟨got, hstrict⟩ := strict_returns_true hns htotal
      rcases Nat.eq_zero_or_pos T.len with hlen | hlen
      · obtain ⟨k₀, hk₀⟩ := hc.answer
        obtain ⟨got', hinsistent⟩ := insistent_returns_nothing hlen hk₀
        rw [decide_eq_true (hnothing hlen k₀ hk₀)] at hinsistent
        exact ⟨true, got, got', hstrict, hinsistent⟩
      · obtain ⟨got', hinsistent⟩ :=
          insistent_returns_true hlen (fun i hi he => hns i hi (.inl he)) htotal
        exact ⟨true, got, got', hstrict, hinsistent⟩
    · obtain ⟨got, hstrict⟩ := strict_returns_false (.inl herror) htotal
      obtain ⟨got', hinsistent⟩ := insistent_returns_false herror htotal
      exact ⟨false, got, got', hstrict, hinsistent⟩

end Sequence

end FullTransfer
