import Mathlib.Data.List.Basic

/-!
# Cutting a list into pieces

The cuts are kept as marks: an item with `true` is the last one of its piece.
-/

namespace Cut

variable {α : Type}

/-- One piece. -/
def mark : List α → List (α × Bool)
  | [] => []
  | [a] => [(a, true)]
  | a :: b :: as => (a, false) :: mark (b :: as)

/-- There is a cut behind `x`. -/
def At (ms : List (α × Bool)) (x : List α) : Prop :=
  ∃ before a after, ms = before ++ (a, true) :: after ∧ x = before.map Prod.fst ++ [a]

/-- The pieces, of which the first one goes on from `buf`, and what is left
behind the last cut. -/
def pieces (buf : List α) : List (α × Bool) → List (List α) × List α
  | [] => ([], buf)
  | (a, true) :: ms => ((buf ++ [a]) :: (pieces [] ms).1, (pieces [] ms).2)
  | (a, false) :: ms => pieces (buf ++ [a]) ms

theorem map_fst_mark (as : List α) : (mark as).map Prod.fst = as := by
  fun_induction mark as with
  | case1 => rfl
  | case2 a => rfl
  | case3 a b as ih => rw [List.map_cons, ih]

theorem map_fst_flatMap_mark (ps : List (List α)) :
    (ps.flatMap mark).map Prod.fst = ps.flatten := by
  induction ps with
  | nil => rfl
  | cons p ps ih => rw [List.flatMap_cons, List.map_append, map_fst_mark, ih, List.flatten_cons]

/-! ## Where the cuts are -/

variable {ms ns : List (α × Bool)} {x : List α}

theorem not_at_nil : ¬ At ([] : List (α × Bool)) x := by
  rintro ⟨before, a, after, h, -⟩
  exact List.append_ne_nil_of_right_ne_nil _ (List.cons_ne_nil _ _) h.symm

theorem at_cons {a : α} {m : Bool} :
    At ((a, m) :: ms) x ↔ m = true ∧ x = [a] ∨ ∃ y, x = a :: y ∧ At ms y := by
  constructor
  · rintro ⟨before, b, after, h, rfl⟩
    cases before with
    | nil =>
      cases h
      exact .inl ⟨rfl, rfl⟩
    | cons first before =>
      cases h
      exact .inr ⟨_, rfl, before, b, after, rfl, rfl⟩
  · rintro (⟨rfl, rfl⟩ | ⟨y, rfl, before, b, after, rfl, rfl⟩)
    · exact ⟨[], a, ms, rfl, rfl⟩
    · exact ⟨(a, m) :: before, b, after, rfl, rfl⟩

theorem at_append :
    At (ms ++ ns) x ↔ At ms x ∨ ∃ y, x = ms.map Prod.fst ++ y ∧ At ns y := by
  induction ms generalizing x with
  | nil => simp [not_at_nil]
  | cons m ms ih =>
    obtain ⟨a, m⟩ := m
    simp only [List.cons_append, at_cons, ih, List.map_cons]
    constructor
    · rintro (h | ⟨y, rfl, h | ⟨z, rfl, h⟩⟩)
      · exact .inl (.inl h)
      · exact .inl (.inr ⟨y, rfl, h⟩)
      · exact .inr ⟨z, rfl, h⟩
    · rintro ((h | ⟨y, rfl, h⟩) | ⟨z, rfl, h⟩)
      · exact .inl h
      · exact .inr ⟨y, rfl, .inl h⟩
      · exact .inr ⟨_, rfl, .inr ⟨z, rfl, h⟩⟩

theorem At.ne_nil (h : At ms x) : x ≠ [] := by
  obtain ⟨before, a, after, -, rfl⟩ := h
  exact List.append_ne_nil_of_right_ne_nil _ (List.cons_ne_nil _ _)

theorem At.isPrefix (h : At ms x) : x <+: ms.map Prod.fst := by
  obtain ⟨before, a, after, rfl, rfl⟩ := h
  exact ⟨after.map Prod.fst, by simp⟩

theorem at_mark {as : List α} (h : as ≠ []) : At (mark as) x ↔ x = as := by
  fun_induction mark as generalizing x with
  | case1 => exact absurd rfl h
  | case2 a => simp [at_cons, not_at_nil]
  | case3 a b as ih => simp [at_cons, ih (List.cons_ne_nil _ _)]

theorem at_flatMap_mark {ps : List (List α)} (h : ∀ p ∈ ps, p ≠ []) :
    At (ps.flatMap mark) x ↔ ∃ before after, ps = before ++ after ∧ before ≠ [] ∧
      x = before.flatten := by
  induction ps generalizing x with
  | nil =>
    constructor
    · exact fun hat => absurd hat not_at_nil
    · rintro ⟨before, after, he, hne, -⟩
      exact absurd (List.append_eq_nil_iff.mp he.symm).1 hne
  | cons p ps ih =>
    have hp := h p List.mem_cons_self
    rw [List.flatMap_cons, at_append, at_mark hp, map_fst_mark]
    constructor
    · rintro (rfl | ⟨y, rfl, hat⟩)
      · exact ⟨[x], ps, rfl, List.cons_ne_nil _ _, (List.append_nil x).symm⟩
      · obtain ⟨before, after, rfl, -, rfl⟩ :=
          (ih fun q hq => h q (List.mem_cons_of_mem _ hq)).mp hat
        exact ⟨p :: before, after, rfl, List.cons_ne_nil _ _, rfl⟩
    · rintro ⟨before, after, he, hne, rfl⟩
      cases before with
      | nil => exact absurd rfl hne
      | cons q before =>
        cases he
        by_cases hb : before = []
        · subst hb
          exact .inl (List.append_nil p)
        · exact .inr ⟨_, rfl, (ih fun q hq => h q (List.mem_cons_of_mem _ hq)).mpr
            ⟨before, after, rfl, hb, rfl⟩⟩

/-! ## The pieces -/

theorem flatten_pieces (buf : List α) (ms : List (α × Bool)) :
    (pieces buf ms).1.flatten ++ (pieces buf ms).2 = buf ++ ms.map Prod.fst := by
  fun_induction pieces buf ms with
  | case1 buf => simp
  | case2 buf a ms ih => simpa using ih
  | case3 buf a ms ih => simpa using ih

theorem pieces_ne_nil {buf : List α} {p : List α} (h : p ∈ (pieces buf ms).1) : p ≠ [] := by
  fun_induction pieces buf ms with
  | case1 buf => cases h
  | case2 buf a ms ih =>
    rcases List.mem_cons.mp h with rfl | h
    · exact List.append_ne_nil_of_right_ne_nil _ (List.cons_ne_nil _ _)
    · exact ih h
  | case3 buf a ms ih => exact ih h

theorem isPrefix_of_pieces {buf p : List α} {ps : List (List α)}
    (h : (pieces buf ms).1 = p :: ps) : buf <+: p := by
  fun_induction pieces buf ms with
  | case1 buf => cases h
  | case2 buf a ms ih =>
    cases h
    exact List.prefix_append _ _
  | case3 buf a ms ih => exact (List.prefix_append _ _).trans (ih h)

/-- There is a cut behind each piece, and nowhere else. -/
theorem at_iff_pieces (buf : List α) :
    At ms x ↔ ∃ before after, (pieces buf ms).1 = before ++ after ∧ before ≠ [] ∧
      buf ++ x = before.flatten := by
  fun_induction pieces buf ms generalizing x with
  | case1 buf =>
    constructor
    · exact fun hat => absurd hat not_at_nil
    · rintro ⟨before, after, he, hne, -⟩
      exact absurd (List.append_eq_nil_iff.mp he.symm).1 hne
  | case2 buf a ms ih =>
    rw [at_cons]
    constructor
    · rintro (⟨-, rfl⟩ | ⟨y, rfl, hat⟩)
      · exact ⟨[buf ++ [a]], _, rfl, List.cons_ne_nil _ _, by simp⟩
      · obtain ⟨before, after, he, -, hy⟩ := ih.mp hat
        refine ⟨(buf ++ [a]) :: before, after, by rw [he]; rfl, List.cons_ne_nil _ _, ?_⟩
        rw [List.flatten_cons, ← hy]
        simp
    · rintro ⟨before, after, he, hne, hx⟩
      cases before with
      | nil => exact absurd rfl hne
      | cons p before =>
        obtain ⟨rfl, htail⟩ := List.cons.inj he
        have hx : x = a :: before.flatten := by simpa using hx
        by_cases hb : before = []
        · subst hb
          exact .inl ⟨rfl, hx⟩
        · exact .inr ⟨_, hx, ih.mpr ⟨before, after, htail, hb, rfl⟩⟩
  | case3 buf a ms ih =>
    rw [at_cons]
    constructor
    · rintro (⟨hfalse, -⟩ | ⟨y, rfl, hat⟩)
      · cases hfalse
      · obtain ⟨before, after, he, hne, hy⟩ := ih.mp hat
        exact ⟨before, after, he, hne, by simpa using hy⟩
    · rintro ⟨before, after, he, hne, hx⟩
      cases before with
      | nil => exact absurd rfl hne
      | cons p before =>
        obtain ⟨rest, rfl⟩ := isPrefix_of_pieces he
        have hx : x = a :: (rest ++ before.flatten) := by simpa using hx
        exact .inr ⟨_, hx, ih.mpr ⟨_, after, he, hne, by simp⟩⟩

/-- What is left is empty where the last cut is at the end. -/
theorem rest_eq_nil_iff (h : ms ≠ []) : (pieces [] ms).2 = [] ↔ At ms (ms.map Prod.fst) := by
  have hflatten := flatten_pieces [] ms
  rw [List.nil_append] at hflatten
  rw [at_iff_pieces [], List.nil_append]
  constructor
  · intro hrest
    rw [hrest, List.append_nil] at hflatten
    refine ⟨(pieces [] ms).1, [], (List.append_nil _).symm, ?_, hflatten.symm⟩
    intro hnil
    rw [hnil, List.flatten_nil, eq_comm, List.map_eq_nil_iff] at hflatten
    exact h hflatten
  · rintro ⟨before, after, he, -, hbefore⟩
    rw [he, hbefore, List.flatten_append, List.append_assoc, List.append_right_eq_self] at hflatten
    exact (List.append_eq_nil_iff.mp hflatten).2

/-- All the pieces, the last one cut or not. -/
def parts (ms : List (α × Bool)) : List (List α) :=
  (pieces [] ms).1 ++ if (pieces [] ms).2.isEmpty then [] else [(pieces [] ms).2]

theorem flatten_parts (ms : List (α × Bool)) : (parts ms).flatten = ms.map Prod.fst := by
  have hflatten := flatten_pieces [] ms
  rw [List.nil_append] at hflatten
  rw [parts, List.flatten_append, ← hflatten]
  split
  · rename_i hrest
    rw [List.isEmpty_iff.mp hrest]
    rfl
  · simp

theorem parts_ne_nil {p : List α} (h : p ∈ parts ms) : p ≠ [] := by
  rcases List.mem_append.mp h with hp | hp
  · exact pieces_ne_nil hp
  · split at hp
    · cases hp
    · rename_i hrest
      rw [List.mem_singleton.mp hp]
      exact fun hnil => hrest (List.isEmpty_iff.mpr hnil)

/-- The cuts are behind parts. -/
theorem At.of_parts (h : At ms x) :
    ∃ before after, parts ms = before ++ after ∧ before ≠ [] ∧ x = before.flatten := by
  obtain ⟨before, after, he, hne, hx⟩ := (at_iff_pieces []).mp h
  exact ⟨before, _, by rw [parts, he, List.append_assoc], hne, hx⟩

/-- There is a cut behind each part but the last. -/
theorem at_of_parts {p q : List α} {ps : List (List α)} (h : parts ms = p :: q :: ps) :
    At ms p := by
  rw [at_iff_pieces [], List.nil_append]
  unfold parts at h
  cases hp : (pieces [] ms).1 with
  | nil =>
    rw [hp, List.nil_append] at h
    split at h <;> cases h
  | cons p' ps' =>
    rw [hp] at h
    obtain ⟨rfl, -⟩ := List.cons.inj h
    exact ⟨[p'], ps', rfl, List.cons_ne_nil _ _, (List.append_nil p').symm⟩

end Cut
