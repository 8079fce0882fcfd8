import Mathlib.Logic.Function.Basic

/-!
# Numbers that are handed out again

A system names open resources by numbers, and a number that has been closed is handed out to the
next caller.  Whoever keeps a number longer than that keeps the number of somebody else's resource,
and closes it when it cleans up.

A *claim* is a number that somebody keeps, with what it was opened for.  Claims are safe when every
one of them is true; the rules below say what opening, keeping and closing a number have to look
like for the claims to stay so.
-/

namespace Handles

open Function

variable {N D : Type*}

/-- Which numbers are open, and what each was opened for last. -/
structure Table (N D : Type*) where
  inUse : N → Bool
  owner : N → Option D

/-- The number is open, and for this. -/
def Table.Holds (n : N) (d : D) (T : Table N D) : Prop := T.inUse n = true ∧ T.owner n = some d

/-- The number is open for nothing else: it can be closed. -/
def Table.Spare (n : N) (d : D) (T : Table N D) : Prop := T.inUse n = true → T.owner n = some d

lemma Table.Holds.spare {n : N} {d : D} {T : Table N D} (h : T.Holds n d) : T.Spare n d :=
  fun _ => h.2

/-- A number is open for one thing. -/
lemma Table.Holds.unique {n : N} {d d' : D} {T : Table N D} (h : T.Holds n d) (h' : T.Spare n d') :
    d = d' := by
  rw [← Option.some_inj, ← h.2, h' h.1]

/-- All claims are true. -/
def Safe (C : N → D → Prop) (T : Table N D) : Prop := ∀ n d, C n d → T.Holds n d

variable {C C' : N → D → Prop} {T T' : Table N D} {n : N} {d : D}

/-- Claims are given up. -/
lemma Safe.mono (h : Safe C T) (hC : ∀ m c, C' m c → C m c) : Safe C' T :=
  fun m c hc => h m c (hC m c hc)

/-- A number that is held is claimed. -/
lemma Safe.claim (h : Safe C T) (hn : T.Holds n d)
    (hC : ∀ m c, C' m c → C m c ∨ m = n ∧ c = d) : Safe C' T := by
  intro m c hc
  rcases hC m c hc with hold | ⟨rfl, rfl⟩
  · exact h m c hold
  · exact hn

/-- A number nobody has is opened, and claimed for what it was opened for. -/
lemma Safe.opened [DecidableEq N] (h : Safe C T) (hfree : T.inUse n = false)
    (hC : ∀ m c, C' m c → C m c ∨ m = n ∧ c = d) :
    Safe C' ⟨update T.inUse n true, update T.owner n (some d)⟩ := by
  intro m c hc
  rcases hC m c hc with hold | ⟨rfl, rfl⟩
  · obtain ⟨huse, howner⟩ := h m c hold
    have hne : m ≠ n := by
      rintro rfl
      rw [hfree] at huse
      cases huse
    exact ⟨(update_of_ne hne ..).trans huse, (update_of_ne hne ..).trans howner⟩
  · exact ⟨update_self .., update_self ..⟩

/-- A number that is open for nothing else is closed, and the claim to it is given up. -/
lemma Safe.close (h : Safe C T) (hn : T.Spare n d) (howner : T'.owner = T.owner)
    (huse : ∀ m, m ≠ n → T'.inUse m = T.inUse m)
    (hC : ∀ m c, C' m c → C m c ∧ ¬(m = n ∧ c = d)) : Safe C' T' := by
  intro m c hc
  obtain ⟨hold, hnot⟩ := hC m c hc
  have hm := h m c hold
  have hne : m ≠ n := by
    rintro rfl
    exact hnot ⟨rfl, hm.unique hn⟩
  exact ⟨by rw [huse m hne, hm.1], by rw [howner, hm.2]⟩

end Handles
