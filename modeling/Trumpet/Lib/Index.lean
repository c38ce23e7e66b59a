import Trumpet.Lib.KeyedMap

/-!
# Secondary indexes of a keyed map

A *name index* maps a second, unique attribute of the values back to their keys
(`NameIndex`); a *group index* lists, under each group, the keys of its members
(`GroupIndex`). Each notion is kept by the updates a store makes and holds of
an index rebuilt from the store's values in any order.
-/

section
variable {K V N : Type} [DecidableEq K] [DecidableEq N] {key : V → K} {name : V → N}

/-- `index` is the inverse of `store` under `name`. -/
def NameIndex (name : V → N) (store : KeyedMap key) (index : HashTable N K) : Prop :=
  ∀ n k, index.find n = some k ↔ ∃ v, store.get k = some v ∧ name v = n

namespace NameIndex

variable {store : KeyedMap key} {index : HashTable N K}

theorem empty : NameIndex name (KeyedMap.empty : KeyedMap key) HashTable.empty := by
  intro n k
  simp

theorem find_name (h : NameIndex name store index) {v : V} (hv : v ∈ store.values) :
    index.find (name v) = some (key v) :=
  (h _ _).mpr ⟨v, KeyedMap.get_of_mem hv, rfl⟩

/-- No two values share a name. -/
theorem name_injOn (h : NameIndex name store index) {v w : V} (hv : v ∈ store.values)
    (hw : w ∈ store.values) (e : name v = name w) : v = w := by
  have hk := (h.find_name hv).symm.trans ((congrArg index.find e).trans (h.find_name hw))
  exact store.key_injOn hv hw (Option.some.inj hk)

/-- Adding a value under a fresh key and an unused name. -/
theorem insert (h : NameIndex name store index) {v : V} (fresh : store.get (key v) = none)
    (free : index.find (name v) = none) :
    NameIndex name (store.insert v) (index.put (name v) (key v)) := by
  intro n k
  rw [HashTable.find_put]
  simp only [KeyedMap.get_insert]
  by_cases hn : n = name v
  · simp only [hn, if_true, Option.some.injEq]
    constructor
    · rintro rfl; exact ⟨v, by simp, rfl⟩
    · rintro ⟨w, hw, e⟩
      by_cases hk : k = key v
      · exact hk.symm
      · rw [if_neg hk] at hw
        have := (h (name v) k).mpr ⟨w, hw, e⟩
        rw [free] at this
        cases this
  · simp only [hn, if_false, h n k]
    constructor
    · rintro ⟨w, hw, e⟩
      have hk : k ≠ key v := by rintro rfl; rw [fresh] at hw; cases hw
      exact ⟨w, by rw [if_neg hk]; exact hw, e⟩
    · rintro ⟨w, hw, e⟩
      by_cases hk : k = key v
      · rw [if_pos hk] at hw
        exact absurd (Option.some.inj hw ▸ e).symm hn
      · rw [if_neg hk] at hw
        exact ⟨w, hw, e⟩

/-- Changing a stored value in place, its name kept. -/
theorem update (h : NameIndex name store index) {v w : V} (hg : store.get (key v) = some w)
    (same : name v = name w) : NameIndex name (store.insert v) index := by
  intro n k
  rw [h n k, KeyedMap.get_insert]
  by_cases hk : k = key v
  · subst hk
    simp [hg, same]
  · simp [hk]

theorem remove (h : NameIndex name store index) {v : V} (hv : v ∈ store.values) :
    NameIndex name (store.remove (key v)) (index.erase (name v)) := by
  intro n k
  rw [HashTable.find_erase]
  simp only [KeyedMap.get_remove]
  by_cases hn : n = name v
  · subst hn
    simp only [if_true]
    constructor
    · intro e; cases e
    · rintro ⟨w, hw, e⟩
      by_cases hk : k = key v
      · rw [if_pos hk] at hw; cases hw
      · rw [if_neg hk] at hw
        have hwv := h.name_injOn (KeyedMap.mem_of_get hw) hv e
        exact absurd ((KeyedMap.key_of_get hw).symm.trans (congrArg key hwv)) hk
  · simp only [hn, if_false, h n k]
    constructor
    · rintro ⟨w, hw, e⟩
      have hk : k ≠ key v := by
        rintro rfl
        have : w = v := Option.some.inj (hw.symm.trans (KeyedMap.get_of_mem hv))
        exact hn (this ▸ e.symm)
      exact ⟨w, by rw [if_neg hk]; exact hw, e⟩
    · rintro ⟨w, hw, e⟩
      by_cases hk : k = key v
      · rw [if_pos hk] at hw; cases hw
      · rw [if_neg hk] at hw; exact ⟨w, hw, e⟩

theorem reorder (h : NameIndex name store index) (ks : List K) :
    NameIndex name (store.reorder ks) index := by
  intro n k
  rw [h n k]
  simp

end NameIndex

/-- The index built by reading a list of values. -/
def buildNames (name : V → N) (key : V → K) (vs : List V) : HashTable N K :=
  vs.foldl (fun index v => index.put (name v) (key v)) HashTable.empty

theorem NameIndex.foldl_load {vs : List V} {store : KeyedMap key} {index : HashTable N K}
    (h : NameIndex name store index) (hk : (vs.map key).Nodup) (hn : (vs.map name).Nodup)
    (fresh : ∀ v ∈ vs, store.get (key v) = none) (free : ∀ v ∈ vs, index.find (name v) = none) :
    NameIndex name (vs.foldl KeyedMap.insert store)
      (vs.foldl (fun index v => index.put (name v) (key v)) index) := by
  induction vs generalizing store index with
  | nil => exact h
  | cons v vs ih =>
    obtain ⟨hkv, hk⟩ := List.nodup_cons.mp hk
    obtain ⟨hnv, hn⟩ := List.nodup_cons.mp hn
    refine ih (h.insert (fresh v List.mem_cons_self) (free v List.mem_cons_self)) hk hn ?_ ?_
    · intro w hw
      have hne : key w ≠ key v := fun e => hkv (e ▸ List.mem_map_of_mem hw)
      rw [KeyedMap.get_insert, if_neg hne]
      exact fresh w (List.mem_cons_of_mem _ hw)
    · intro w hw
      have hne : name w ≠ name v := fun e => hnv (e ▸ List.mem_map_of_mem hw)
      rw [HashTable.find_put, if_neg hne]
      exact free w (List.mem_cons_of_mem _ hw)

/-- Rebuilding store and index from a list with distinct keys and names. -/
theorem NameIndex.rebuild {vs : List V} (hk : (vs.map key).Nodup) (hn : (vs.map name).Nodup) :
    NameIndex name ((KeyedMap.empty : KeyedMap key).insertAll vs) (buildNames name key vs) :=
  NameIndex.empty.foldl_load hk hn (fun _ _ => rfl) (fun _ _ => rfl)

/-- Two indexes of stores with the same lookups have the same lookups. -/
theorem NameIndex.find_congr {a b : KeyedMap key} {i j : HashTable N K} (hi : NameIndex name a i)
    (hj : NameIndex name b j) (h : ∀ k, a.get k = b.get k) (n : N) : i.find n = j.find n := by
  ext k
  rw [hi n k, hj n k, h k]

/-! ### Stores whose names pass a check -/

/-- Reload a store and its index from a list, skipping the values whose name
does not pass. -/
def loadNamed (name : V → N) (key : V → K) (ok : N → Bool) (vs : List V) :
    KeyedMap key × HashTable N K :=
  vs.foldl (fun p v => if ok (name v) then (p.1.insert v, p.2.put (name v) (key v)) else p)
    (KeyedMap.empty, HashTable.empty)

/-- Every stored name passes the check, and the index inverts the store. -/
structure Named (name : V → N) (ok : N → Bool) (store : KeyedMap key) (index : HashTable N K) :
    Prop where
  names : ∀ v ∈ store.values, ok (name v) = true
  index : NameIndex name store index

namespace Named

variable {ok : N → Bool} {store : KeyedMap key} {index : HashTable N K}

theorem empty : Named name ok (KeyedMap.empty : KeyedMap key) HashTable.empty :=
  ⟨by simp, NameIndex.empty⟩

theorem insert (h : Named name ok store index) {v : V} (fresh : store.get (key v) = none)
    (free : index.find (name v) = none) (hv : ok (name v) = true) :
    Named name ok (store.insert v) (index.put (name v) (key v)) := by
  refine ⟨fun w hw => ?_, h.index.insert fresh free⟩
  rcases KeyedMap.mem_insert.mp hw with rfl | ⟨hw, _⟩
  · exact hv
  · exact h.names w hw

theorem update (h : Named name ok store index) {v w : V} (hg : store.get (key v) = some w)
    (same : name v = name w) : Named name ok (store.insert v) index := by
  refine ⟨fun u hu => ?_, h.index.update hg same⟩
  rcases KeyedMap.mem_insert.mp hu with rfl | ⟨hu, _⟩
  · rw [same]; exact h.names w (KeyedMap.mem_of_get hg)
  · exact h.names u hu

theorem remove (h : Named name ok store index) {v : V} (hv : v ∈ store.values) :
    Named name ok (store.remove (key v)) (index.erase (name v)) :=
  ⟨fun w hw => h.names w (KeyedMap.mem_remove.mp hw).1, h.index.remove hv⟩

theorem reorder (h : Named name ok store index) (ks : List K) :
    Named name ok (store.reorder ks) index :=
  ⟨fun v hv => h.names v ((store.reorder_values_perm ks).mem_iff.mp hv), h.index.reorder ks⟩

theorem names_nodup (h : Named name ok store index) : (store.values.map name).Nodup :=
  List.Nodup.map_on (fun _ ha _ hb e => h.index.name_injOn ha hb e)
    (List.Nodup.of_map _ store.nodup)

/-- Looking a name up and then its key finds the value of that name. -/
theorem lookup_eq_some (h : Named name ok store index) {n : N} {v : V} :
    (index.find n).bind store.get = some v ↔ v ∈ store.values ∧ name v = n := by
  rw [Option.bind_eq_some_iff]
  constructor
  · rintro ⟨k, hk, hv⟩
    obtain ⟨w, hw, hn⟩ := (h.index n k).mp hk
    obtain rfl : w = v := Option.some.inj (hw.symm.trans hv)
    exact ⟨KeyedMap.mem_of_get hv, hn⟩
  · rintro ⟨hv, rfl⟩
    exact ⟨key v, h.index.find_name hv, KeyedMap.get_of_mem hv⟩

theorem loadNamed_eq {vs : List V} (hok : ∀ v ∈ vs, ok (name v) = true) :
    loadNamed name key ok vs = (KeyedMap.empty.insertAll vs, buildNames name key vs) := by
  have run : ∀ p : KeyedMap key × HashTable N K,
      vs.foldl (fun p v => if ok (name v) then (p.1.insert v, p.2.put (name v) (key v)) else p) p =
        (p.1.insertAll vs, vs.foldl (fun index v => index.put (name v) (key v)) p.2) := by
    induction vs with
    | nil => intro p; rfl
    | cons v vs ih =>
      intro p
      rw [List.foldl_cons, if_pos (hok v List.mem_cons_self),
        ih (fun w hw => hok w (List.mem_cons_of_mem _ hw))]
      rfl
  exact run _

/-- Reloading the values of a store, in any order, rebuilds its lookups. -/
theorem load (h : Named name ok store index) {vs : List V} (hp : vs.Perm store.values) :
    Named name ok (loadNamed name key ok vs).1 (loadNamed name key ok vs).2 ∧
      ∀ k, (loadNamed name key ok vs).1.get k = store.get k := by
  have hget : ∀ k, (KeyedMap.empty.insertAll vs).get k = store.get k :=
    KeyedMap.get_insertAll_perm store hp
  rw [loadNamed_eq fun v hv => h.names v (hp.mem_iff.mp hv)]
  refine ⟨⟨fun v hv => h.names v ?_, NameIndex.rebuild ?_ ?_⟩, hget⟩
  · exact KeyedMap.mem_values.mpr ((hget _).symm.trans (KeyedMap.get_of_mem hv))
  · exact (hp.map _).nodup_iff.mpr store.nodup
  · exact (hp.map _).nodup_iff.mpr h.names_nodup

end Named

end

section
variable {K V G : Type} [DecidableEq K] [DecidableEq G] {key : V → K} {group : V → G}

/-- Each group lists the keys of exactly its members, each once. -/
def GroupIndex (group : V → G) (store : KeyedMap key) (index : HashTable G (List K)) : Prop :=
  ∀ g, ((index.find g).getD []).Nodup ∧
    ∀ k, k ∈ (index.find g).getD [] ↔ ∃ v, store.get k = some v ∧ group v = g

namespace GroupIndex

variable {store : KeyedMap key} {index : HashTable G (List K)}

theorem empty : GroupIndex group (KeyedMap.empty : KeyedMap key) HashTable.empty := by
  intro g
  simp

theorem insert (h : GroupIndex group store index) {v : V} (fresh : store.get (key v) = none) :
    GroupIndex group (store.insert v) (index.alter (group v) [] (· ++ [key v])) := by
  intro g
  rw [HashTable.find_alter]
  by_cases hg : g = group v
  · subst hg
    obtain ⟨hnd, hmem⟩ := h (group v)
    have hnot : key v ∉ (index.find (group v)).getD [] := by
      rw [hmem]
      rintro ⟨w, hw, _⟩
      rw [fresh] at hw
      cases hw
    simp only [if_true, Option.getD_some]
    refine ⟨List.nodup_append.mpr ⟨hnd, List.nodup_singleton _, ?_⟩, ?_⟩
    · rintro a ha b hb rfl
      exact hnot (List.mem_singleton.mp hb ▸ ha)
    · intro k
      rw [List.mem_append, List.mem_singleton, hmem, KeyedMap.get_insert]
      by_cases hk : k = key v
      · simp [hk]
      · simp [hk]
  · simp only [hg, if_false]
    refine ⟨(h g).1, fun k => ?_⟩
    rw [(h g).2, KeyedMap.get_insert]
    by_cases hk : k = key v
    · subst hk
      simp only [if_true, fresh, Option.some.injEq]
      constructor
      · rintro ⟨w, hw, _⟩; cases hw
      · rintro ⟨w, rfl, e⟩; exact absurd e.symm hg
    · simp [hk]

/-- Changing a stored value in place, its group kept. -/
theorem update (h : GroupIndex group store index) {v w : V} (hg : store.get (key v) = some w)
    (same : group v = group w) : GroupIndex group (store.insert v) index := by
  intro g
  refine ⟨(h g).1, fun k => ?_⟩
  rw [(h g).2, KeyedMap.get_insert]
  by_cases hk : k = key v
  · subst hk
    simp [hg, same]
  · simp [hk]

theorem reorder (h : GroupIndex group store index) (ks : List K) :
    GroupIndex group (store.reorder ks) index := by
  intro g
  simpa using h g

/-- The members found through the index are the values of the group, each once. -/
theorem members_perm (h : GroupIndex group store index) (g : G) :
    (((index.find g).getD []).filterMap store.get).Perm
      (store.values.filter fun v => group v = g) := by
  obtain ⟨hnd, hmem⟩ := h g
  apply (List.perm_ext_iff_of_nodup ?_ (List.Nodup.filter _ (List.Nodup.of_map _ store.nodup))).mpr
  · intro v
    simp only [List.mem_filterMap, List.mem_filter, decide_eq_true_eq]
    constructor
    · rintro ⟨k, hk, hv⟩
      obtain ⟨w, hw, e⟩ := (hmem k).mp hk
      obtain rfl : w = v := Option.some.inj (hw.symm.trans hv)
      exact ⟨KeyedMap.mem_of_get hv, e⟩
    · rintro ⟨hv, e⟩
      exact ⟨key v, (hmem _).mpr ⟨v, KeyedMap.get_of_mem hv, e⟩, KeyedMap.get_of_mem hv⟩
  · refine List.Nodup.filterMap ?_ hnd
    intro j k v hj hk
    rw [Option.mem_def] at hj hk
    exact (KeyedMap.key_of_get hj).symm.trans (KeyedMap.key_of_get hk)

theorem foldl_load {vs : List V} (h : GroupIndex group store index) (hk : (vs.map key).Nodup)
    (fresh : ∀ v ∈ vs, store.get (key v) = none) :
    GroupIndex group (vs.foldl KeyedMap.insert store)
      (vs.foldl (fun index v => index.alter (group v) [] (· ++ [key v])) index) := by
  induction vs generalizing store index with
  | nil => exact h
  | cons v vs ih =>
    obtain ⟨hkv, hk⟩ := List.nodup_cons.mp hk
    apply ih (h.insert (fresh v List.mem_cons_self)) hk
    intro w hw
    have hne : key w ≠ key v := fun e => hkv (e ▸ List.mem_map_of_mem hw)
    rw [KeyedMap.get_insert, if_neg hne]
    exact fresh w (List.mem_cons_of_mem _ hw)

end GroupIndex

end
