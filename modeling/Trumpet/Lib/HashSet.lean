import Mathlib.Data.List.Nodup
import Mathlib.Tactic.Tauto

/-! A set of hashable elements, in its iteration order. -/

@[ext] structure HashSet (α : Type) where
  items : List α
  nodup : items.Nodup
  deriving DecidableEq, Repr

namespace HashSet

variable {α : Type} [DecidableEq α]

def insert (s : HashSet α) (a : α) : HashSet α :=
  if h : a ∈ s.items then s
  else ⟨s.items ++ [a], List.nodup_append.mpr ⟨s.nodup, List.nodup_singleton a, by
    rintro b hb c hc rfl
    exact h (List.mem_singleton.mp hc ▸ hb)⟩⟩

/-- Collecting an iterator: later duplicates are dropped. -/
def ofList (l : List α) : HashSet α := l.foldl insert ⟨[], List.nodup_nil⟩

def contains (s : HashSet α) (a : α) : Bool := decide (a ∈ s.items)

theorem foldl_insert_items (s : HashSet α) (l : List α) (h : (s.items ++ l).Nodup) :
    (l.foldl insert s).items = s.items ++ l := by
  induction l generalizing s with
  | nil => simp
  | cons a l ih =>
    have ha : a ∉ s.items := fun hm =>
      (List.nodup_append.mp h).2.2 a hm a List.mem_cons_self rfl
    have hs : (s.insert a).items = s.items ++ [a] := by simp [insert, ha]
    rw [List.foldl_cons, ih _ (by simpa [hs] using h), hs, List.append_assoc, List.singleton_append]

/-- Reading a set back from its own iteration loses nothing. -/
theorem ofList_items (s : HashSet α) : ofList s.items = s := by
  ext1
  exact foldl_insert_items ⟨[], List.nodup_nil⟩ s.items (by simpa using s.nodup)

theorem mem_insert (s : HashSet α) (a b : α) :
    b ∈ (s.insert a).items ↔ b = a ∨ b ∈ s.items := by
  unfold insert
  split
  · rename_i h
    exact ⟨Or.inr, fun hb => hb.elim (fun e => e ▸ h) id⟩
  · simp [or_comm]

/-- Collecting an iterator collects exactly its elements. -/
theorem mem_ofList (l : List α) (a : α) : a ∈ (ofList l).items ↔ a ∈ l := by
  have run : ∀ s : HashSet α, a ∈ (l.foldl insert s).items ↔ a ∈ s.items ∨ a ∈ l := by
    induction l with
    | nil => intro s; simp
    | cons b l ih =>
      intro s
      rw [List.foldl_cons, ih, mem_insert, List.mem_cons]
      tauto
  refine (run ⟨[], List.nodup_nil⟩).trans ?_
  simp

end HashSet
