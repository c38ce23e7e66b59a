import Mathlib.Data.List.Basic

/-!
# Lexicographic order of blocks

Lists of one length are compared block by block, and a code whose words have one
length and keep the order of the symbols keeps the order of the lists.
-/

namespace Lexicographic

variable {α β : Type}

/-- Blocks of one length are compared before what follows them. -/
theorem append_lt_append_iff [LT α] {xs ys x y : List α} (h : xs.length = ys.length) :
    xs ++ x < ys ++ y ↔ xs < ys ∨ xs = ys ∧ x < y := by
  induction xs generalizing ys with
  | nil =>
    obtain rfl := List.length_eq_zero_iff.mp h.symm
    simp
  | cons a xs ih =>
    cases ys with
    | nil => cases h
    | cons b ys =>
      simp only [List.cons_append, List.cons_lt_cons_iff, ih (Nat.succ.inj h), List.cons.injEq]
      tauto

theorem take_drop_lt_iff [LT α] {xs ys : List α} (n : Nat) (h : xs.length = ys.length) :
    xs < ys ↔ xs.take n < ys.take n ∨ xs.take n = ys.take n ∧ xs.drop n < ys.drop n := by
  have hlen : (xs.take n).length = (ys.take n).length := by
    rw [List.length_take, List.length_take, h]
  calc xs < ys
      ↔ xs.take n ++ xs.drop n < ys.take n ++ ys.drop n := by
        rw [List.take_append_drop, List.take_append_drop]
    _ ↔ _ := append_lt_append_iff hlen

section
variable {code : α → List β} {width : Nat}

theorem take_flatMap (hw : ∀ a, (code a).length = width) (n : Nat) (xs : List α) :
    (xs.flatMap code).take (n * width) = (xs.take n).flatMap code := by
  induction n generalizing xs with
  | zero => simp
  | succ n ih =>
    cases xs with
    | nil => simp
    | cons a xs =>
      have hle : (code a).length ≤ (n + 1) * width := by
        rw [hw, Nat.succ_mul]
        omega
      have hrest : (n + 1) * width - (code a).length = n * width := by
        rw [hw, Nat.succ_mul]
        omega
      rw [List.flatMap_cons, List.take_append, List.take_of_length_le hle, hrest, ih]
      rfl

theorem drop_flatMap (hw : ∀ a, (code a).length = width) (n : Nat) (xs : List α) :
    (xs.flatMap code).drop (n * width) = (xs.drop n).flatMap code := by
  induction n generalizing xs with
  | zero => simp
  | succ n ih =>
    cases xs with
    | nil => simp
    | cons a xs =>
      have hle : (code a).length ≤ (n + 1) * width := by
        rw [hw, Nat.succ_mul]
        omega
      have hrest : (n + 1) * width - (code a).length = n * width := by
        rw [hw, Nat.succ_mul]
        omega
      rw [List.flatMap_cons, List.drop_append, List.drop_of_length_le hle, hrest, ih]
      rfl

theorem length_flatMap (hw : ∀ a, (code a).length = width) (xs : List α) :
    (xs.flatMap code).length = xs.length * width := by
  induction xs with
  | nil => simp
  | cons a xs ih =>
    rw [List.flatMap_cons, List.length_append, hw, ih, List.length_cons, Nat.succ_mul,
      Nat.add_comm]

theorem flatMap_injective (hw : ∀ a, (code a).length = width) (hinj : Function.Injective code)
    {xs ys : List α} (h : xs.length = ys.length) (he : xs.flatMap code = ys.flatMap code) :
    xs = ys := by
  induction xs generalizing ys with
  | nil => exact (List.length_eq_zero_iff.mp h.symm).symm
  | cons a xs ih =>
    cases ys with
    | nil => cases h
    | cons b ys =>
      rw [List.flatMap_cons, List.flatMap_cons] at he
      obtain ⟨hab, hrest⟩ := List.append_inj he ((hw a).trans (hw b).symm)
      rw [hinj hab, ih (Nat.succ.inj h) hrest]

/-- A code that keeps the order of the symbols keeps the order of the lists. -/
theorem flatMap_lt_iff [LT α] [LT β] (hw : ∀ a, (code a).length = width)
    (hinj : Function.Injective code) (hlt : ∀ a b, code a < code b ↔ a < b) {xs ys : List α}
    (h : xs.length = ys.length) : xs.flatMap code < ys.flatMap code ↔ xs < ys := by
  induction xs generalizing ys with
  | nil =>
    obtain rfl := List.length_eq_zero_iff.mp h.symm
    simp
  | cons a xs ih =>
    cases ys with
    | nil => cases h
    | cons b ys =>
      have hlen : (code a).length = (code b).length := (hw a).trans (hw b).symm
      rw [List.flatMap_cons, List.flatMap_cons, append_lt_append_iff hlen, hlt, hinj.eq_iff,
        ih (Nat.succ.inj h), List.cons_lt_cons_iff]

end

end Lexicographic
