import Mathlib.Data.List.Basic

/-!
# Transducers

A machine that takes in its input item by item, and returns some outputs at
each. Where it comes back to one state behind every block of its input, its
output is that of the blocks.
-/

namespace Transducer

section
variable {σ α β : Type} (step : σ → α → σ × List β)

/-- The state reached, and the outputs on the way. -/
def run (s : σ) : List α → σ × List β
  | [] => (s, [])
  | a :: as => ((run (step s a).1 as).1, (step s a).2 ++ (run (step s a).1 as).2)

@[simp] theorem run_nil (s : σ) : run step s [] = (s, []) := rfl

theorem run_cons (s : σ) (a : α) (as : List α) : run step s (a :: as) =
    ((run step (step s a).1 as).1, (step s a).2 ++ (run step (step s a).1 as).2) := rfl

theorem run_append (s : σ) (as bs : List α) : run step s (as ++ bs) =
    ((run step (run step s as).1 bs).1,
      (run step s as).2 ++ (run step (run step s as).1 bs).2) := by
  induction as generalizing s with
  | nil => rfl
  | cons a as ih =>
    rw [List.cons_append, run_cons, ih, run_cons]
    simp only [List.append_assoc]

variable {step}

theorem run_of_eq {s t u : σ} {as bs : List α} {out rest : List β}
    (h : run step s as = (t, out)) (h' : run step t bs = (u, rest)) :
    run step s (as ++ bs) = (u, out ++ rest) := by
  rw [run_append, h, h']

/-- Each block leads back to the state it started from. -/
theorem run_flatMap {ι : Type} {s : σ} {block : ι → List α} {out : ι → List β} {is : List ι}
    (h : ∀ i ∈ is, run step s (block i) = (s, out i)) :
    run step s (is.flatMap block) = (s, is.flatMap out) := by
  induction is with
  | nil => rfl
  | cons i is ih =>
    exact run_of_eq (h i List.mem_cons_self) (ih fun j hj => h j (List.mem_cons_of_mem _ hj))

end

/-! ## Which block gave which output -/

section
variable {β : Type}

/-- At most two outputs, neither of which is the target if there are two. -/
def Short (target : β) (out : List β) : Prop :=
  out = [] ∨ (∃ a, out = [a]) ∨ ∃ a b, out = [a, b] ∧ a ≠ target ∧ b ≠ target

/-- Outputs that have fallen behind their targets do not catch up. -/
theorem flatMap_ne_of_behind {blocks : List (β × List β)}
    (h : ∀ block ∈ blocks, Short block.1 block.2) (owed : β) (more : List β) :
    blocks.flatMap Prod.snd ≠ owed :: more ++ blocks.map Prod.fst := by
  induction blocks generalizing owed more with
  | nil => exact nofun
  | cons block blocks ih =>
    obtain ⟨target, out⟩ := block
    have ih := ih fun block hblock => h block (List.mem_cons_of_mem _ hblock)
    intro he
    rw [List.flatMap_cons, List.map_cons] at he
    rcases h _ List.mem_cons_self with rfl | ⟨a, rfl⟩ | ⟨a, b, rfl, -, hb⟩
    · exact ih owed (more ++ [target]) (by simpa using he)
    · cases more with
      | nil => exact ih target [] (by simpa using (List.cons.inj he).2)
      | cons next more =>
        exact ih next (more ++ [target]) (by simpa using (List.cons.inj he).2)
    · cases more with
      | nil => exact hb (by simpa using (List.cons.inj (List.cons.inj he).2).1)
      | cons next more =>
        cases more with
        | nil => exact ih target [] (by simpa using (List.cons.inj (List.cons.inj he).2).2)
        | cons last more =>
          exact ih last (more ++ [target])
            (by simpa using (List.cons.inj (List.cons.inj he).2).2)

/-- The outputs are the targets in order only where each block gives its own. -/
theorem flatMap_eq_map_iff {blocks : List (β × List β)}
    (h : ∀ block ∈ blocks, Short block.1 block.2) :
    blocks.flatMap Prod.snd = blocks.map Prod.fst ↔ ∀ block ∈ blocks, block.2 = [block.1] := by
  induction blocks with
  | nil => simp
  | cons block blocks ih =>
    obtain ⟨target, out⟩ := block
    have hrest : ∀ block ∈ blocks, Short block.1 block.2 := fun block hblock =>
      h block (List.mem_cons_of_mem _ hblock)
    have hbehind := flatMap_ne_of_behind hrest target []
    rw [List.flatMap_cons, List.map_cons, List.forall_mem_cons, ← ih hrest]
    rcases h _ List.mem_cons_self with rfl | ⟨a, rfl⟩ | ⟨a, b, rfl, ha, -⟩
    · simpa using hbehind
    · simp
    · simp [ha]

end

end Transducer
