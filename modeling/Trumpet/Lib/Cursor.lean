import Mathlib.Data.List.Pairwise
import Mathlib.Order.Lattice

/-!
# Pages by cursor

A reader asks for the items of an ordered listing page by page, and names the
last key it has seen. The listing may be another one at each request.
-/

namespace Cursor

variable {α κ : Type} [LinearOrder κ] (key : α → κ)

/-- The position of the first item after the cursor. -/
def start (after : Option κ) (items : List α) : Nat :=
  match after with
  | none => 0
  | some c => items.findIdx fun a => c < key a

/-- The items of one page, and the cursor for the next one unless the listing
ends there. -/
def page (after : Option κ) (size : Nat) (items : List α) : List α × Option κ :=
  let first := start key after items
  let last := min (first + size) items.length
  let slice := (items.take last).drop first
  (slice, if last < items.length then slice.getLast?.map key else none)

/-- The items come in strictly increasing order of their keys. -/
def Increasing (items : List α) : Prop := items.Pairwise fun a b => key a < key b

/-- What has been read up to the cursor. -/
structure Collected (after : Option κ) (read : List κ) : Prop where
  increasing : read.Pairwise (· < ·)
  upto : ∀ k ∈ read, ∃ c, after = some c ∧ k ≤ c

/-- The key has been read, or is still to come. -/
def Due (k : κ) (after : Option κ) (read : List κ) : Prop := k ∈ read ∨ ∀ c ∈ after, c < k

variable {key} {after : Option κ} {size : Nat} {items : List α}

/-- In an increasing listing the items after the cursor are those from `start`. -/
theorem start_le_iff (h : Increasing key items) {i : Nat} (hi : i < items.length) :
    start key after items ≤ i ↔ ∀ c ∈ after, c < key items[i] := by
  cases after with
  | none => simp [start]
  | some c =>
    simp only [Option.mem_def, Option.some.injEq, forall_eq', start]
    constructor
    · intro hle
      have hlt : items.findIdx (fun a => decide (c < key a)) < items.length := by omega
      have hfound : c < key (items[items.findIdx fun a => decide (c < key a)]) :=
        of_decide_eq_true (List.findIdx_getElem (w := hlt))
      rcases Nat.lt_or_eq_of_le hle with hlt' | heq
      · exact lt_trans hfound (List.pairwise_iff_getElem.mp h _ _ hlt hi hlt')
      · simpa only [heq] using hfound
    · intro hlt
      by_contra hgt
      have hnot := List.not_of_lt_findIdx (Nat.lt_of_not_le hgt)
      exact absurd hlt (of_decide_eq_false hnot)

theorem mem_page {a : α} : a ∈ (page key after size items).1 ↔
    ∃ i, ∃ hi : i < items.length, start key after items ≤ i ∧
      i < start key after items + size ∧ items[i] = a := by
  simp only [page, List.mem_iff_getElem, List.length_drop, List.length_take, List.getElem_drop,
    List.getElem_take]
  constructor
  · rintro ⟨j, hj, rfl⟩
    exact ⟨_, by omega, by omega, by omega, rfl⟩
  · rintro ⟨i, hi, hle, hlt, rfl⟩
    refine ⟨i - start key after items, by omega, ?_⟩
    simp only [Nat.add_sub_cancel' hle]

theorem page_increasing (after : Option κ) (size : Nat) (h : Increasing key items) :
    Increasing key (page key after size items).1 :=
  List.Pairwise.drop (List.Pairwise.take h)

/-- The items of a page come after the cursor. -/
theorem after_lt_of_mem_page (h : Increasing key items) {a : α}
    (ha : a ∈ (page key after size items).1) : ∀ c ∈ after, c < key a := by
  obtain ⟨i, hi, hle, _, rfl⟩ := mem_page.mp ha
  exact (start_le_iff h hi).mp hle

/-- The next cursor is the key of the page's last item. -/
theorem le_next (h : Increasing key items) {c : κ} (hc : (page key after size items).2 = some c)
    {a : α} (ha : a ∈ (page key after size items).1) : key a ≤ c := by
  have hlast : (page key after size items).1.getLast?.map key = some c := by
    simp only [page] at hc ⊢
    split at hc
    · exact hc
    · cases hc
  obtain ⟨b, hb, rfl⟩ := Option.map_eq_some_iff.mp hlast
  obtain ⟨before, hbefore⟩ := List.getLast?_eq_some_iff.mp hb
  have hinc := page_increasing after size h
  rw [hbefore] at ha hinc
  rcases List.mem_append.mp ha with hin | hin
  · exact le_of_lt ((List.pairwise_append.mp hinc).2.2 a hin b (List.mem_singleton.mpr rfl))
  · rw [List.mem_singleton.mp hin]

/-- An item after the cursor is on the page, or comes after the next cursor. -/
theorem mem_page_or_next_lt (h : Increasing key items) (hsize : 0 < size) {a : α}
    (ha : a ∈ items) (hafter : ∀ c ∈ after, c < key a) :
    a ∈ (page key after size items).1 ∨
      ∃ c, (page key after size items).2 = some c ∧ c < key a := by
  obtain ⟨i, hi, rfl⟩ := List.mem_iff_getElem.mp ha
  have hle := (start_le_iff h hi).mpr hafter
  by_cases hlt : i < start key after items + size
  · exact .inl (mem_page.mpr ⟨i, hi, hle, hlt, rfl⟩)
  · -- the page is full and ends before the item
    have hmin : min (start key after items + size) items.length = start key after items + size :=
      Nat.min_eq_left (by omega)
    have hprev : start key after items + size - 1 < items.length := by omega
    have hlast : (page key after size items).1.getLast? =
        some items[start key after items + size - 1] := by
      simp only [page, hmin, List.getLast?_eq_getElem?, List.length_drop, List.length_take,
        List.getElem?_drop]
      rw [List.getElem?_take_of_lt (by omega), List.getElem?_eq_getElem (by omega)]
      congr 2
      omega
    refine .inr ⟨key items[start key after items + size - 1], ?_, ?_⟩
    · simp only [page, hmin] at hlast ⊢
      rw [if_pos (by omega), hlast]
      rfl
    · exact List.pairwise_iff_getElem.mp h _ _ hprev hi (by omega)

/-! ## Reading on -/

variable {read : List κ}

theorem Collected.nil : Collected (none : Option κ) [] :=
  ⟨List.Pairwise.nil, fun _ h => by (cases h)⟩

/-- What is read with one more page is still in order. -/
theorem Collected.append (hr : Collected after read) (h : Increasing key items) :
    (read ++ (page key after size items).1.map key).Pairwise (· < ·) := by
  refine List.pairwise_append.mpr
    ⟨hr.increasing, List.pairwise_map.mpr (page_increasing _ _ h), fun k hk k' hk' => ?_⟩
  obtain ⟨c, hc, hle⟩ := hr.upto k hk
  obtain ⟨a, ha, rfl⟩ := List.mem_map.mp hk'
  exact lt_of_le_of_lt hle (after_lt_of_mem_page h ha c hc)

theorem Collected.next (hr : Collected after read) (h : Increasing key items) {c : κ}
    (hc : (page key after size items).2 = some c) :
    Collected (some c) (read ++ (page key after size items).1.map key) := by
  refine ⟨hr.append h, fun k hk => ⟨c, rfl, ?_⟩⟩
  rcases List.mem_append.mp hk with hk | hk
  · -- a page before the end has an item, and it comes after all that was read
    obtain ⟨b, hb⟩ : ∃ b, b ∈ (page key after size items).1 := by
      apply List.exists_mem_of_ne_nil
      intro hnil
      simp only [page] at hc hnil
      rw [hnil] at hc
      split at hc <;> cases hc
    obtain ⟨d, hd, hle⟩ := hr.upto k hk
    exact le_trans hle (le_trans (le_of_lt (after_lt_of_mem_page h hb d hd)) (le_next h hc hb))
  · obtain ⟨a, ha, rfl⟩ := List.mem_map.mp hk
    exact le_next h hc ha

theorem Due.next {k : κ} (hd : Due k after read) (h : Increasing key items) (hsize : 0 < size)
    (hk : ∃ a ∈ items, key a = k) :
    k ∈ read ++ (page key after size items).1.map key ∨
      ∃ c, (page key after size items).2 = some c ∧ c < k := by
  rcases hd with hin | hafter
  · exact .inl (List.mem_append_left _ hin)
  · obtain ⟨a, ha, rfl⟩ := hk
    rcases mem_page_or_next_lt h hsize ha hafter with hin | hlt
    · exact .inl (List.mem_append_right _ (List.mem_map_of_mem hin))
    · exact .inr hlt

end Cursor
