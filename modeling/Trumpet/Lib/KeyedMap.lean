import Mathlib.Data.List.Nodup
import Mathlib.Data.List.Perm.Basic

/-!
# Finite maps whose values carry their key

A hash map indexed by a field of its own values. The list is the map's
iteration order, which is unspecified: `reorder` reaches every other order, and
no lemma about lookups depends on it. A plain map from `K` to `V` is the keyed
map of its entries.
-/

/-- Values with pairwise different keys, in iteration order. -/
structure KeyedMap {K V : Type} (key : V → K) where
  values : List V
  nodup : (values.map key).Nodup

namespace KeyedMap

variable {K V : Type} {key : V → K}

@[ext] theorem ext {a b : KeyedMap key} (h : a.values = b.values) : a = b := by
  cases a; cases b; cases h; rfl

def empty : KeyedMap key := ⟨[], List.nodup_nil⟩

@[simp] theorem values_empty : (empty : KeyedMap key).values = [] := rfl

def keys (m : KeyedMap key) : List K := m.values.map key

theorem nodup_filter (m : KeyedMap key) (p : V → Bool) : ((m.values.filter p).map key).Nodup :=
  m.nodup.sublist (List.Sublist.map key List.filter_sublist)

theorem key_injOn (m : KeyedMap key) {v w : V} (hv : v ∈ m.values) (hw : w ∈ m.values)
    (h : key v = key w) : v = w :=
  List.inj_on_of_nodup_map m.nodup hv hw h

variable [DecidableEq K]

def get (m : KeyedMap key) (k : K) : Option V := m.values.find? fun v => key v = k

def remove (m : KeyedMap key) (k : K) : KeyedMap key :=
  ⟨m.values.filter fun w => key w ≠ k, m.nodup_filter _⟩

/-- Insert, replacing the value already stored under the same key. -/
def insert (m : KeyedMap key) (v : V) : KeyedMap key :=
  ⟨v :: (m.remove (key v)).values, by
    rw [List.map_cons, List.nodup_cons]
    refine ⟨?_, (m.remove (key v)).nodup⟩
    simp [remove]⟩

def insertAll (m : KeyedMap key) (vs : List V) : KeyedMap key := vs.foldl insert m

theorem get_eq_some {m : KeyedMap key} {k : K} {v : V} :
    m.get k = some v ↔ v ∈ m.values ∧ key v = k := by
  constructor
  · intro h
    have hk := List.find?_some h
    exact ⟨List.mem_of_find?_eq_some h, by simpa using hk⟩
  · rintro ⟨hv, rfl⟩
    cases h : m.get (key v) with
    | none =>
      have := List.find?_eq_none.mp h v hv
      simp at this
    | some w =>
      have hw := List.mem_of_find?_eq_some h
      have hk := List.find?_some h
      rw [m.key_injOn hw hv (by simpa using hk)]

theorem get_eq_none {m : KeyedMap key} {k : K} : m.get k = none ↔ ∀ v ∈ m.values, key v ≠ k := by
  simp [get]

theorem key_of_get {m : KeyedMap key} {k : K} {v : V} (h : m.get k = some v) : key v = k :=
  (get_eq_some.mp h).2

theorem mem_of_get {m : KeyedMap key} {k : K} {v : V} (h : m.get k = some v) : v ∈ m.values :=
  (get_eq_some.mp h).1

theorem get_of_mem {m : KeyedMap key} {v : V} (h : v ∈ m.values) : m.get (key v) = some v :=
  get_eq_some.mpr ⟨h, rfl⟩

@[simp] theorem get_empty (k : K) : (empty : KeyedMap key).get k = none := rfl

theorem get_remove (m : KeyedMap key) (j k : K) :
    (m.remove j).get k = if k = j then none else m.get k := by
  split
  · rename_i h
    simp [get_eq_none, remove, h]
  · rename_i h
    cases hg : m.get k with
    | none =>
      rw [get_eq_none] at hg ⊢
      exact fun v hv => hg v (List.mem_of_mem_filter hv)
    | some v =>
      obtain ⟨hv, rfl⟩ := get_eq_some.mp hg
      exact get_eq_some.mpr ⟨List.mem_filter.mpr ⟨hv, by simpa using h⟩, rfl⟩

/-- Removing a key that is there takes one value out. -/
theorem remove_split (m : KeyedMap key) {v : V} (hv : v ∈ m.values) :
    ∃ before after, m.values = before ++ v :: after ∧
      (m.remove (key v)).values = before ++ after := by
  obtain ⟨before, after, hsplit⟩ := List.append_of_mem hv
  have hn := m.nodup
  rw [hsplit, List.map_append, List.map_cons] at hn
  obtain ⟨-, hafter, hdisjoint⟩ := List.nodup_append.mp hn
  refine ⟨before, after, hsplit, ?_⟩
  change m.values.filter (fun w => key w ≠ key v) = before ++ after
  rw [hsplit, List.filter_append, List.filter_cons_of_neg (by simp)]
  congr 1
  · apply List.filter_eq_self.mpr
    intro w hw
    exact decide_eq_true (hdisjoint _ (List.mem_map_of_mem hw) _ List.mem_cons_self)
  · apply List.filter_eq_self.mpr
    intro w hw
    apply decide_eq_true
    intro hk
    exact (List.nodup_cons.mp hafter).1 (hk ▸ List.mem_map_of_mem hw)

theorem get_insert (m : KeyedMap key) (v : V) (k : K) :
    (m.insert v).get k = if k = key v then some v else m.get k := by
  split
  · rename_i h
    simp [get, insert, h]
  · rename_i h
    have hn : ¬ key v = k := fun e => h e.symm
    have := get_remove m (key v) k
    simp only [h, if_false] at this
    rw [← this]
    simp [get, insert, hn]

@[simp] theorem get_insert_self (m : KeyedMap key) (v : V) : (m.insert v).get (key v) = some v := by
  simp [get_insert]

theorem mem_values {m : KeyedMap key} {v : V} : v ∈ m.values ↔ m.get (key v) = some v :=
  ⟨get_of_mem, mem_of_get⟩

theorem mem_insert {m : KeyedMap key} {v w : V} :
    w ∈ (m.insert v).values ↔ w = v ∨ w ∈ m.values ∧ key w ≠ key v := by
  simp [insert, remove]

theorem mem_remove {m : KeyedMap key} {k : K} {w : V} :
    w ∈ (m.remove k).values ↔ w ∈ m.values ∧ key w ≠ k := by
  simp [remove]

/-- Two maps with the same lookups hold the same values, up to iteration order. -/
theorem values_perm {a b : KeyedMap key} (h : ∀ k, a.get k = b.get k) : a.values.Perm b.values := by
  apply (List.perm_ext_iff_of_nodup (List.Nodup.of_map _ a.nodup) (List.Nodup.of_map _ b.nodup)).mpr
  intro v
  rw [mem_values, mem_values, h]

/-- The values that satisfy `p`. -/
def filter (m : KeyedMap key) (p : V → Bool) : KeyedMap key :=
  ⟨m.values.filter p, m.nodup_filter p⟩

theorem get_filter (m : KeyedMap key) (p : V → Bool) (k : K) :
    (m.filter p).get k = (m.get k).filter p := by
  ext v
  rw [get_eq_some, Option.filter_eq_some_iff, get_eq_some]
  simp only [filter, List.mem_filter]
  constructor
  · rintro ⟨⟨hv, hp⟩, hk⟩; exact ⟨⟨hv, hk⟩, hp⟩
  · rintro ⟨⟨hv, hk⟩, hp⟩; exact ⟨⟨hv, hp⟩, hk⟩

/-! ## Rebuilding a map from a list -/

theorem get_insertAll_of_notMem (m : KeyedMap key) (vs : List V) (k : K)
    (h : ∀ v ∈ vs, key v ≠ k) : (m.insertAll vs).get k = m.get k := by
  induction vs generalizing m with
  | nil => rfl
  | cons v vs ih =>
    have hv := h v List.mem_cons_self
    rw [insertAll, List.foldl_cons]
    refine (ih _ fun w hw => h w (List.mem_cons_of_mem _ hw)).trans ?_
    rw [get_insert, if_neg fun e => hv e.symm]

theorem get_insertAll_of_mem (m : KeyedMap key) (vs : List V) (hn : (vs.map key).Nodup)
    {v : V} (h : v ∈ vs) : (m.insertAll vs).get (key v) = some v := by
  induction vs generalizing m with
  | nil => cases h
  | cons w ws ih =>
    obtain ⟨hw, hn⟩ := List.nodup_cons.mp hn
    rw [insertAll, List.foldl_cons]
    rcases List.mem_cons.mp h with rfl | h
    · refine (get_insertAll_of_notMem _ ws _ fun u hu e => hw ?_).trans (get_insert_self m v)
      exact e ▸ List.mem_map_of_mem hu
    · exact ih _ hn h

/-- Inserting the values of a map into an empty one, in any order, rebuilds its
lookups. -/
theorem get_insertAll_perm (m : KeyedMap key) {vs : List V} (h : vs.Perm m.values) (k : K) :
    ((empty : KeyedMap key).insertAll vs).get k = m.get k := by
  have hn : (vs.map key).Nodup := (h.map key).nodup_iff.mpr m.nodup
  cases hg : m.get k with
  | none =>
    rw [get_insertAll_of_notMem, get_empty]
    exact fun v hv => get_eq_none.mp hg v (h.mem_iff.mp hv)
  | some v =>
    obtain ⟨hv, rfl⟩ := get_eq_some.mp hg
    exact get_insertAll_of_mem _ vs hn (h.mem_iff.mpr hv)

/-! ## Iteration order -/

/-- The same map, iterated in the order `ks` of its keys; any other list leaves
the order alone. -/
def reorder (m : KeyedMap key) (ks : List K) : KeyedMap key :=
  if h : ks.Perm m.keys then
    ⟨ks.filterMap m.get, by
      have e : (ks.filterMap m.get).map key = ks := by
        have : ∀ k ∈ ks, ∃ v, m.get k = some v ∧ key v = k := by
          intro k hk
          obtain ⟨v, hv, rfl⟩ := List.mem_map.mp (h.mem_iff.mp hk)
          exact ⟨v, get_of_mem hv, rfl⟩
        clear h
        induction ks with
        | nil => rfl
        | cons k ks ih =>
          obtain ⟨v, hv, hk⟩ := this k List.mem_cons_self
          simp only [List.filterMap_cons, hv, List.map_cons, hk]
          rw [ih fun j hj => this j (List.mem_cons_of_mem _ hj)]
      rw [e]
      exact h.nodup_iff.mpr m.nodup⟩
  else m

@[simp] theorem get_reorder (m : KeyedMap key) (ks : List K) (k : K) :
    (m.reorder ks).get k = m.get k := by
  unfold reorder
  split
  · rename_i h
    ext v
    simp only [get_eq_some, List.mem_filterMap]
    constructor
    · rintro ⟨⟨j, _, hv, rfl⟩, rfl⟩
      exact ⟨hv, rfl⟩
    · rintro ⟨hv, rfl⟩
      exact ⟨⟨key v, h.mem_iff.mpr (List.mem_map_of_mem hv), hv, rfl⟩, rfl⟩
  · rfl

theorem reorder_values_perm (m : KeyedMap key) (ks : List K) :
    (m.reorder ks).values.Perm m.values :=
  values_perm (get_reorder m ks)

end KeyedMap

/-! ## Plain maps -/

/-- A hash map from `K` to `V`, as the keyed map of its entries. -/
abbrev HashTable (K V : Type) := KeyedMap (Prod.fst : K × V → K)

namespace HashTable

variable {K V : Type} [DecidableEq K]

def empty : HashTable K V := KeyedMap.empty

def find (m : HashTable K V) (k : K) : Option V := (KeyedMap.get m k).map Prod.snd

def put (m : HashTable K V) (k : K) (v : V) : HashTable K V := KeyedMap.insert m (k, v)

def erase (m : HashTable K V) (k : K) : HashTable K V := KeyedMap.remove m k

/-- The entry API: the value under `k`, or the default, replaced by its image. -/
def alter (m : HashTable K V) (k : K) (default : V) (f : V → V) : HashTable K V :=
  m.put k (f ((m.find k).getD default))

@[simp] theorem find_empty (k : K) : (empty : HashTable K V).find k = none := rfl

theorem find_put (m : HashTable K V) (j k : K) (v : V) :
    (m.put j v).find k = if k = j then some v else m.find k := by
  simp only [find, put, KeyedMap.get_insert]
  split <;> rfl

theorem find_erase (m : HashTable K V) (j k : K) :
    (m.erase j).find k = if k = j then none else m.find k := by
  simp only [find, erase, KeyedMap.get_remove]
  split <;> rfl

theorem find_alter (m : HashTable K V) (j k : K) (d : V) (f : V → V) :
    (m.alter j d f).find k = if k = j then some (f ((m.find j).getD d)) else m.find k :=
  find_put m j k _

theorem find_eq_some {m : HashTable K V} {k : K} {v : V} :
    m.find k = some v ↔ (k, v) ∈ m.values := by
  simp only [find, Option.map_eq_some_iff, KeyedMap.get_eq_some]
  constructor
  · rintro ⟨⟨j, w⟩, ⟨h, rfl⟩, rfl⟩; exact h
  · intro h; exact ⟨(k, v), ⟨h, rfl⟩, rfl⟩

/-- Change the value under `k` where it stands. -/
def modify (m : HashTable K V) (k : K) (f : V → V) : HashTable K V :=
  ⟨m.values.map fun e => (e.1, if e.1 = k then f e.2 else e.2), by
    rw [List.map_map]
    exact m.nodup⟩

theorem find_modify (m : HashTable K V) (j k : K) (f : V → V) :
    (m.modify j f).find k = if k = j then (m.find k).map f else m.find k := by
  have hfind : (m.modify j f).find k =
      (m.values.find? fun e => e.1 = k).map fun e => if e.1 = j then f e.2 else e.2 := by
    rw [find, KeyedMap.get, modify, List.find?_map, Option.map_map]
    rfl
  rw [hfind, find, KeyedMap.get]
  cases hg : m.values.find? fun e => e.1 = k with
  | none => split <;> rfl
  | some e =>
    have hk : e.1 = k := by simpa using List.find?_some hg
    rw [← hk]
    split
    · rename_i hj
      simp [hj]
    · rename_i hj
      simp [hj]

/-- Changing a value to itself changes nothing. -/
theorem modify_eq_self {m : HashTable K V} {k : K} {v : V} (h : m.find k = some v) {f : V → V}
    (hf : f v = v) : m.modify k f = m := by
  apply KeyedMap.ext
  refine (List.map_congr_left fun e he => ?_).trans (List.map_id' _)
  split
  · rename_i hk
    subst hk
    have hv := find_eq_some.mpr he
    rw [h] at hv
    have he : e.2 = v := (Option.some.inj hv).symm
    rw [he, hf, ← he]
  · rfl

@[simp] theorem find_reorder (m : HashTable K V) (ks : List K) (k : K) :
    find (KeyedMap.reorder m ks) k = m.find k := by
  simp [find]

/-- Flattening a table of lists whose elements know their own key: the elements
of one key are its list, in order. -/
theorem flatMap_filter {α : Type} (m : HashTable K (List α)) (group : α → K)
    (h : ∀ e ∈ m.values, ∀ a ∈ e.2, group a = e.1) (k : K) :
    ((m.values.flatMap Prod.snd).filter fun a => group a = k) = (m.find k).getD [] := by
  have run : ∀ es : List (K × List α), (es.map Prod.fst).Nodup →
      (∀ e ∈ es, ∀ a ∈ e.2, group a = e.1) →
      ((es.flatMap Prod.snd).filter fun a => group a = k) =
        ((es.find? fun e => e.1 = k).map Prod.snd).getD [] := by
    intro es hn hv
    induction es with
    | nil => rfl
    | cons e es ih =>
      obtain ⟨he, hn⟩ := List.nodup_cons.mp hn
      have ih := ih hn fun d hd => hv d (List.mem_cons_of_mem _ hd)
      have hev := hv e List.mem_cons_self
      rw [List.flatMap_cons, List.filter_append, List.find?_cons]
      by_cases hk : e.1 = k
      · have hall : (e.2.filter fun a => group a = k) = e.2 :=
          List.filter_eq_self.mpr fun a ha => by simp [hev a ha, hk]
        have hnone : (es.find? fun d => d.1 = k) = none :=
          List.find?_eq_none.mpr fun d hd hdk => he (by
            rw [hk, ← of_decide_eq_true hdk]; exact List.mem_map_of_mem hd)
        rw [hall, ih, hnone]
        simp [hk]
      · have hnil : (e.2.filter fun a => group a = k) = [] :=
          List.filter_eq_nil_iff.mpr fun a ha => by simp [hev a ha, hk]
        rw [hnil, ih]
        simp [hk]
  exact run m.values m.nodup h

end HashTable
