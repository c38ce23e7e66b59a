import Mathlib.Data.List.Nodup

/-!
# Ledgers

A ledger records what is added and which keys are removed, oldest entry first.
What stands are the additions, in order, whose key is not removed later.
-/

namespace Ledger

variable {α κ : Type} [DecidableEq κ] (key : α → κ)

inductive Entry (α κ : Type) where
  | added (a : α)
  | removed (k : κ)

def Entry.removes (k : κ) : Entry α κ → Bool
  | added _ => false
  | removed j => j = k

@[simp] theorem Entry.removes_added (k : κ) (a : α) : removes k (added a) = false := rfl

@[simp] theorem Entry.removes_removed (k j : κ) :
    removes k (removed j : Entry α κ) = decide (j = k) := rfl

/-- The additions that no later entry removes. -/
def standing : List (Entry α κ) → List α
  | [] => []
  | .added a :: later =>
    if later.any (Entry.removes (key a)) then standing later else a :: standing later
  | .removed _ :: later => standing later

variable {key}

theorem standing_added (log : List (Entry α κ)) (a : α) :
    standing key (log ++ [.added a]) = standing key log ++ [a] := by
  induction log with
  | nil => rfl
  | cons e log ih =>
    cases e with
    | removed k => exact ih
    | added b =>
      have hlater : (log ++ [Entry.added a]).any (Entry.removes (key b)) =
          log.any (Entry.removes (key b)) := by simp
      simp only [List.cons_append, standing, hlater, ih]
      split
      · rfl
      · rfl

theorem standing_removed (log : List (Entry α κ)) (k : κ) :
    standing key (log ++ [.removed k]) = (standing key log).filter fun a => key a ≠ k := by
  induction log with
  | nil => rfl
  | cons e log ih =>
    cases e with
    | removed j => exact ih
    | added b =>
      have hlater : (log ++ [Entry.removed k]).any (Entry.removes (key b)) =
          (log.any (Entry.removes (key b)) || decide (k = key b)) := by simp
      simp only [List.cons_append, standing, hlater, ih]
      by_cases hany : log.any (Entry.removes (key b)) = true
      · rw [if_pos hany, hany, Bool.true_or, if_pos rfl]
      · rw [if_neg hany, Bool.eq_false_iff.mpr hany, Bool.false_or]
        by_cases hk : key b = k
        · rw [if_pos (decide_eq_true hk.symm), List.filter_cons_of_neg (by simp [hk])]
        · rw [if_neg (by simp [Ne.symm hk]), List.filter_cons_of_pos (by simp [hk])]

/-- Keys that are added only while they do not stand are distinct. -/
theorem distinct_added {log : List (Entry α κ)} (h : ((standing key log).map key).Nodup) {a : α}
    (fresh : ∀ b ∈ standing key log, key b ≠ key a) :
    ((standing key (log ++ [.added a])).map key).Nodup := by
  rw [standing_added, List.map_append]
  refine List.nodup_append.mpr ⟨h, List.nodup_singleton _, ?_⟩
  intro j hj k hk
  obtain ⟨b, hb, rfl⟩ := List.mem_map.mp hj
  rw [List.mem_singleton.mp hk]
  exact fresh b hb

theorem distinct_removed {log : List (Entry α κ)} (h : ((standing key log).map key).Nodup)
    (k : κ) : ((standing key (log ++ [.removed k])).map key).Nodup := by
  rw [standing_removed]
  exact h.sublist (List.filter_sublist.map key)

end Ledger
