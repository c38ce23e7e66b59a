import Mathlib.Data.List.Basic

/-!
# Maps by their entries in key order

A map is the list of its entries in the order of their keys, each key once. An entry put
into it replaces the one that has its key, so that of a list of entries the last of each
key stays.
-/

namespace OrderedMap

variable {K V : Type} (lt : K → K → Bool)

/-- A strict linear order. -/
structure Order : Prop where
  asymm : ∀ {a b}, lt a b = true → ¬ lt b a = true
  trans : ∀ {a b c}, lt a b = true → lt b c = true → lt a c = true
  trichotomous : ∀ {a b}, ¬ lt a b = true → ¬ lt b a = true → a = b

def insert (k : K) (v : V) : List (K × V) → List (K × V)
  | [] => [(k, v)]
  | e :: rest =>
    if lt k e.1 then (k, v) :: e :: rest
    else if lt e.1 k then e :: insert k v rest
    else (k, v) :: rest

def ofList (entries : List (K × V)) : List (K × V) :=
  entries.foldl (fun m e => insert lt e.1 e.2 m) []

def Sorted (m : List (K × V)) : Prop := m.Pairwise fun a b => lt a.1 b.1 = true

variable {lt}

theorem mem_insert {k : K} {v : V} {e : K × V} {m : List (K × V)} (h : e ∈ insert lt k v m) :
    e = (k, v) ∨ e ∈ m := by
  induction m with
  | nil => exact .inl (List.mem_singleton.mp h)
  | cons f rest ih =>
    rw [insert] at h
    split at h
    · exact (List.mem_cons.mp h).imp_right id
    · split at h
      · rcases List.mem_cons.mp h with rfl | h
        · exact .inr List.mem_cons_self
        · exact (ih h).imp_right (List.mem_cons_of_mem _)
      · exact (List.mem_cons.mp h).imp_right (List.mem_cons_of_mem _)

theorem mem_foldl_insert {e : K × V} {entries m : List (K × V)}
    (h : e ∈ entries.foldl (fun m e => insert lt e.1 e.2 m) m) : e ∈ m ∨ e ∈ entries := by
  induction entries generalizing m with
  | nil => exact .inl h
  | cons f rest ih =>
    rcases ih h with hm | hrest
    · rcases mem_insert hm with rfl | hm
      · exact .inr List.mem_cons_self
      · exact .inl hm
    · exact .inr (List.mem_cons_of_mem _ hrest)

theorem mem_ofList {e : K × V} {entries : List (K × V)} (h : e ∈ ofList lt entries) :
    e ∈ entries :=
  (mem_foldl_insert h).resolve_left List.not_mem_nil

section
variable (order : Order lt)
include order

theorem Sorted.insert {m : List (K × V)} (h : Sorted lt m) (k : K) (v : V) :
    Sorted lt (insert lt k v m) := by
  induction m with
  | nil => exact List.pairwise_singleton _ _
  | cons f rest ih =>
    obtain ⟨hf, hrest⟩ := List.pairwise_cons.mp h
    rw [OrderedMap.insert]
    split
    · rename_i hlt
      refine List.pairwise_cons.mpr ⟨fun e he => ?_, h⟩
      rcases List.mem_cons.mp he with rfl | he
      · exact hlt
      · exact order.trans hlt (hf e he)
    · split
      · rename_i hlt
        refine List.pairwise_cons.mpr ⟨fun e he => ?_, ih hrest⟩
        rcases mem_insert he with rfl | he
        · exact hlt
        · exact hf e he
      · rename_i hlt hgt
        obtain rfl : k = f.1 := order.trichotomous hlt hgt
        exact List.pairwise_cons.mpr ⟨hf, hrest⟩

theorem sorted_foldl_insert {m : List (K × V)} (h : Sorted lt m) (entries : List (K × V)) :
    Sorted lt (entries.foldl (fun m e => OrderedMap.insert lt e.1 e.2 m) m) := by
  induction entries generalizing m with
  | nil => exact h
  | cons f rest ih => exact ih (h.insert order f.1 f.2)

theorem sorted_ofList (entries : List (K × V)) : Sorted lt (ofList lt entries) :=
  sorted_foldl_insert order List.Pairwise.nil entries

/-- An entry behind all others goes to the end. -/
theorem insert_last {m : List (K × V)} {k : K} (h : ∀ e ∈ m, lt e.1 k = true) (v : V) :
    OrderedMap.insert lt k v m = m ++ [(k, v)] := by
  induction m with
  | nil => rfl
  | cons f rest ih =>
    have hf := h f List.mem_cons_self
    have hrest := ih fun e he => h e (List.mem_cons_of_mem _ he)
    rw [OrderedMap.insert, if_neg (order.asymm hf), if_pos hf, hrest, List.cons_append]

theorem foldl_insert_sorted {m entries : List (K × V)} (h : Sorted lt (m ++ entries)) :
    entries.foldl (fun m e => OrderedMap.insert lt e.1 e.2 m) m = m ++ entries := by
  induction entries generalizing m with
  | nil => exact (List.append_nil m).symm
  | cons f rest ih =>
    have hm : ∀ e ∈ m, lt e.1 f.1 = true := fun e he =>
      (List.pairwise_append.mp h).2.2 e he f List.mem_cons_self
    have happend : m ++ f :: rest = (m ++ [f]) ++ rest := by
      rw [List.append_assoc, List.singleton_append]
    rw [happend] at h ⊢
    rw [List.foldl_cons, insert_last order hm]
    exact ih h

/-- The entries of a map make up the map. -/
theorem ofList_of_sorted {m : List (K × V)} (h : Sorted lt m) : ofList lt m = m :=
  foldl_insert_sorted order h

end

/-! ## Keys that are lists -/

/-- Lists of keys go by their first differing key. -/
theorem Order.lex [BEq K] [LawfulBEq K] (order : Order lt) :
    Order fun a b : List K => a.lex b lt where
  asymm {a b} hab hba := by
    rw [List.lex_eq_true_iff_lex] at hab hba
    exact List.lex_asymm (fun {_ _} h => order.asymm h) hab hba
  trans {a b c} hab hbc := by
    rw [List.lex_eq_true_iff_lex] at hab hbc ⊢
    exact List.lex_trans (fun h h' => order.trans h h') hab hbc
  trichotomous {a b} hab hba := by
    induction a generalizing b with
    | nil =>
      cases b with
      | nil => rfl
      | cons => exact absurd List.nil_lex_cons hab
    | cons x xs ih =>
      cases b with
      | nil => exact absurd List.nil_lex_cons hba
      | cons y ys =>
        rw [List.cons_lex_cons, Bool.or_eq_true, Bool.and_eq_true, beq_iff_eq, not_or] at hab hba
        obtain rfl := order.trichotomous hab.1 hba.1
        rw [ih (fun h => hab.2 ⟨rfl, h⟩) fun h => hba.2 ⟨rfl, h⟩]

end OrderedMap
