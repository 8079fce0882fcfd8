import Mathlib.Data.List.Basic
import Mathlib.Tactic.Lemma

/-!
# Arrays with checked stores

An array has a fixed number of cells, which its type says.  A store to an index that is not
inside ends the computation with `Overrun`, so a computation that returns has stored inside the
array only.

`copy` stores one cell after the other.  `copy_eq` is its whole effect where there is room for
everything, `copy_overrun` says where it ends if there is not.  `touch` is `copy` for programs
whose other state says already what they store.
-/

namespace Memory

variable {α : Type*} {n : ℕ}

/-- A store outside an array, and the index it was meant for. -/
structure Overrun where
  index : ℕ
  deriving DecidableEq, Repr

/-- `m[i] = x`. -/
def store (i : ℕ) (x : α) (m : Vector α n) : Except Overrun (Vector α n) :=
  if h : i < n then .ok (m.set i x h) else .error ⟨i⟩

/-- Store `xs` from index `i` on. -/
def copy : ℕ → List α → Vector α n → Except Overrun (Vector α n)
  | _, [], m => .ok m
  | i, x :: xs, m => do
    let m ← store i x m
    copy (i + 1) xs m

/-- `copy` where only the indices matter: `count` cells of an array of `n`, from index `i` on. -/
def touch (n i count : ℕ) : Except Overrun Unit :=
  (copy i (List.replicate count ()) (Vector.replicate n ())).map fun _ => ()

/-! ## One cell -/

lemma store_eq {i : ℕ} (h : i < n) (x : α) (m : Vector α n) :
    ∃ m', store i x m = .ok m' ∧ m'.toList = m.toList.set i x :=
  ⟨m.set i x h, dif_pos h, Vector.toList_set h⟩

lemma store_overrun {i : ℕ} (h : n ≤ i) (x : α) (m : Vector α n) : store i x m = .error ⟨i⟩ :=
  dif_neg (Nat.not_lt.mpr h)

/-- What stands in front of the cell stays, and the cell itself follows. -/
lemma take_succ_set {i : ℕ} {xs : List α} (h : i < xs.length) (x : α) :
    (xs.set i x).take (i + 1) = xs.take i ++ [x] := by
  rw [List.take_add_one, List.take_set_of_le (Nat.le_refl i), List.getElem?_set_self h,
    Option.toList_some]

/-! ## Many cells -/

/-- Where there is room for them all, the cells are stored between what was in front of them and
what was behind them. -/
lemma copy_eq {xs : List α} {i : ℕ} (h : i + xs.length ≤ n) (m : Vector α n) :
    ∃ m', copy i xs m = .ok m' ∧
      m'.toList = m.toList.take i ++ xs ++ m.toList.drop (i + xs.length) := by
  induction xs generalizing i m with
  | nil => exact ⟨m, rfl, by simp⟩
  | cons x xs ih =>
    rw [List.length_cons] at h
    obtain ⟨m₁, hstore, hlist⟩ := store_eq (show i < n by omega) x m
    obtain ⟨m', hcopy, hlist'⟩ := ih (show i + 1 + xs.length ≤ n by omega) m₁
    refine ⟨m', ?_, ?_⟩
    · rw [copy, hstore]
      exact hcopy
    · have hlen : i < m.toList.length := by
        rw [Vector.length_toList]
        omega
      rw [hlist', hlist, take_succ_set hlen, List.drop_set_of_lt (by omega), List.length_cons,
        List.append_assoc (m.toList.take i), List.singleton_append, Nat.add_right_comm,
        Nat.add_assoc]

/-- Where there is not, it ends at the first index outside. -/
lemma copy_overrun {xs : List α} {i : ℕ} (hxs : xs ≠ []) (h : n < i + xs.length)
    (m : Vector α n) : copy i xs m = .error ⟨max i n⟩ := by
  induction xs generalizing i m with
  | nil => exact absurd rfl hxs
  | cons x xs ih =>
    rw [List.length_cons] at h
    rw [copy]
    rcases Nat.lt_or_ge i n with hlt | hge
    · obtain ⟨m₁, hstore, -⟩ := store_eq hlt x m
      have hne : xs ≠ [] := by
        rintro rfl
        rw [List.length_nil] at h
        omega
      have hrest := ih hne (show n < i + 1 + xs.length by omega) m₁
      rw [Nat.max_eq_right hlt] at hrest
      rw [hstore, Nat.max_eq_right (Nat.le_of_lt hlt)]
      exact hrest
    · rw [store_overrun hge, Nat.max_eq_left hge]
      rfl

section Splice

variable {l xs : List α} {i j : ℕ}

lemma length_splice (hi : i ≤ l.length) : (l.take i ++ xs).length = i + xs.length := by
  rw [List.length_append, List.length_take, Nat.min_eq_left hi]

/-- Nothing behind the cells that are stored into `l` at `i` changes. -/
lemma drop_splice (hi : i ≤ l.length) (hj : i + xs.length ≤ j) :
    (l.take i ++ xs ++ l.drop (i + xs.length)).drop j = l.drop j := by
  have hlen : (l.take i ++ xs).length = i + xs.length := length_splice hi
  rw [List.drop_append, List.drop_of_length_le (by omega), List.nil_append, List.drop_drop, hlen,
    Nat.add_sub_of_le hj]

end Splice

lemma touch_ok {i count : ℕ} (h : i + count ≤ n) : touch n i count = .ok () := by
  have hroom : i + (List.replicate count ()).length ≤ n := by
    rwa [List.length_replicate]
  obtain ⟨m', hcopy, -⟩ := copy_eq hroom (Vector.replicate n ())
  rw [touch, hcopy]
  rfl

lemma touch_overrun {i count : ℕ} (hcount : count ≠ 0) (h : n < i + count) :
    touch n i count = .error ⟨max i n⟩ := by
  rw [touch, copy_overrun (by simpa using hcount) (by rwa [List.length_replicate])]
  rfl

end Memory
