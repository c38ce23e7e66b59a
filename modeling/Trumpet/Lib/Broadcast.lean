import Mathlib.Data.List.Basic

/-!
# Bounded broadcast channels

A channel keeps the last `capacity` values sent. A receiver is the position of
the next value it reads; one that has fallen behind the oldest kept value is told
how many it missed, and goes on from that one.
-/

namespace Broadcast

variable {α : Type}

/-- What a receiver is given. -/
inductive Recv (α : Type) where
  | item (a : α)
  | lagged (missed : Nat)
  | empty

/-- The position of the oldest value the channel still holds. -/
def oldest (capacity : Nat) (sent : List α) : Nat := sent.length - capacity

def recv (capacity : Nat) (sent : List α) (next : Nat) : Recv α × Nat :=
  if next < oldest capacity sent then
    (.lagged (oldest capacity sent - next), oldest capacity sent)
  else
    match sent[next]? with
    | some a => (.item a, next + 1)
    | none => (.empty, next)

variable {capacity next : Nat} {sent : List α}

theorem oldest_le : oldest capacity sent ≤ sent.length := Nat.sub_le _ _

/-- A receiver misses values, reads the next one, or has read them all. -/
theorem recv_cases :
    (next < oldest capacity sent ∧
      recv capacity sent next = (.lagged (oldest capacity sent - next), oldest capacity sent)) ∨
    (oldest capacity sent ≤ next ∧
      ∃ a, sent[next]? = some a ∧ recv capacity sent next = (.item a, next + 1)) ∨
    sent.length ≤ next ∧ recv capacity sent next = (.empty, next) := by
  unfold recv
  by_cases hlt : next < oldest capacity sent
  · exact .inl ⟨hlt, if_pos hlt⟩
  · rw [if_neg hlt]
    cases hs : sent[next]? with
    | some a => exact .inr (.inl ⟨Nat.le_of_not_lt hlt, a, rfl, rfl⟩)
    | none => exact .inr (.inr ⟨List.getElem?_eq_none_iff.mp hs, rfl⟩)

end Broadcast
