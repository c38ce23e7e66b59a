import Trumpet.Core.Error
import Trumpet.Core.Types
import Trumpet.Lib.KeyedMap

/-! Webhook configurations, by task. -/

namespace Trumpet

structure PushNotificationStore where
  configs : HashTable TaskId (List PushNotificationConfig)

/-- The URL parser: the scheme of an absolute URL, or the text of its error. -/
abbrev UrlParser := String → Except String String

namespace PushNotificationStore

def new : PushNotificationStore := ⟨.empty⟩

/-- `self.configs.entry(task_id).or_default().push(cfg)` -/
def push (configs : HashTable TaskId (List PushNotificationConfig)) (cfg : PushNotificationConfig) :
    HashTable TaskId (List PushNotificationConfig) :=
  configs.alter cfg.taskId [] (· ++ [cfg])

def create (parse : UrlParser) (self : PushNotificationStore) (id : PushNotificationId)
    (taskId : TaskId) (url token : String) (authentication : Option PushNotificationAuth) :
    Except Error PushNotificationConfig × PushNotificationStore :=
  match parse url with
  | .error e =>
    (.error (.invalidInput ("push notification url '" ++ url ++ "' is invalid: " ++ e)), self)
  | .ok scheme =>
    if scheme ≠ "http" ∧ scheme ≠ "https" then
      (.error (.invalidInput ("push notification url '" ++ url ++
        "' must use http or https; got '" ++ scheme ++ "'")), self)
    else
      let cfg : PushNotificationConfig := ⟨id, taskId, url, token, authentication⟩
      (.ok cfg, ⟨push self.configs cfg⟩)

def get (self : PushNotificationStore) (taskId : TaskId) (id : PushNotificationId) :
    Option PushNotificationConfig :=
  (self.configs.find taskId).bind fun v => v.find? fun c => c.id = id

def list (self : PushNotificationStore) (taskId : TaskId) : List PushNotificationConfig :=
  (self.configs.find taskId).getD []

def delete (self : PushNotificationStore) (taskId : TaskId) (id : PushNotificationId) :
    Bool × PushNotificationStore :=
  match self.configs.find taskId with
  | none => (false, self)
  | some v =>
    let kept := v.filter fun c => c.id ≠ id
    (decide (kept.length < v.length),
      if kept.isEmpty then ⟨self.configs.erase taskId⟩
      else ⟨self.configs.modify taskId fun _ => kept⟩)

def restore (_self : PushNotificationStore) (configs : List PushNotificationConfig) :
    PushNotificationStore :=
  ⟨configs.foldl push .empty⟩

def all (self : PushNotificationStore) : List PushNotificationConfig :=
  self.configs.values.flatMap Prod.snd

/-- Iterate the tasks in another order. -/
def reorder (self : PushNotificationStore) (ids : List TaskId) : PushNotificationStore :=
  ⟨KeyedMap.reorder self.configs ids⟩

/-! ## The store invariant -/

/-- Every configuration is filed under its own task. -/
def Valid (s : PushNotificationStore) : Prop :=
  ∀ e ∈ s.configs.values, ∀ cfg ∈ e.2, cfg.taskId = e.1

theorem new_valid : Valid new := by
  intro e he
  cases he

theorem valid_iff {s : PushNotificationStore} :
    Valid s ↔ ∀ t, ∀ cfg ∈ s.list t, cfg.taskId = t := by
  constructor
  · intro h t cfg hc
    rw [list] at hc
    cases hf : s.configs.find t with
    | none => rw [hf] at hc; cases hc
    | some v =>
      rw [hf] at hc
      exact h (t, v) (HashTable.find_eq_some.mp hf) cfg hc
  · rintro h ⟨t, v⟩ he cfg hc
    apply h t cfg
    rw [list, HashTable.find_eq_some.mpr he]
    exact hc

theorem list_push (configs : HashTable TaskId (List PushNotificationConfig))
    (cfg : PushNotificationConfig) (t : TaskId) :
    list ⟨push configs cfg⟩ t =
      list ⟨configs⟩ t ++ if cfg.taskId = t then [cfg] else [] := by
  simp only [list, push, HashTable.find_alter]
  by_cases h : t = cfg.taskId
  · subst h; simp
  · rw [if_neg h, if_neg fun e => h e.symm, List.append_nil]

theorem create_valid {s : PushNotificationStore} (h : Valid s) (parse : UrlParser)
    (id : PushNotificationId) (taskId : TaskId) (url token : String)
    (authentication : Option PushNotificationAuth) :
    Valid (create parse s id taskId url token authentication).2 := by
  unfold create
  split
  · exact h
  · split
    · exact h
    · rw [valid_iff] at h ⊢
      intro t cfg hc
      rw [list_push, List.mem_append] at hc
      rcases hc with hc | hc
      · exact h t cfg hc
      · split at hc
        · rename_i ht
          rw [List.mem_singleton.mp hc]; exact ht
        · cases hc

theorem list_delete (s : PushNotificationStore) (taskId : TaskId) (id : PushNotificationId)
    (t : TaskId) :
    (s.delete taskId id).2.list t =
      if t = taskId then (s.list t).filter fun c => c.id ≠ id else s.list t := by
  unfold delete
  cases hf : s.configs.find taskId with
  | none =>
    simp only
    split
    · rename_i ht; subst ht
      simp [list, hf]
    · rfl
  | some v =>
    simp only
    split
    · rename_i hk
      simp only [list, HashTable.find_erase]
      split
      · rename_i ht; subst ht
        rw [hf]
        exact (List.isEmpty_iff.mp hk).symm
      · rfl
    · simp only [list, HashTable.find_modify]
      split
      · rename_i ht; subst ht
        rw [hf]; rfl
      · rfl

theorem delete_valid {s : PushNotificationStore} (h : Valid s) (taskId : TaskId)
    (id : PushNotificationId) : Valid (s.delete taskId id).2 := by
  rw [valid_iff] at h ⊢
  intro t cfg hc
  rw [list_delete] at hc
  split at hc
  · exact h t cfg (List.mem_of_mem_filter hc)
  · exact h t cfg hc

@[simp] theorem list_reorder (s : PushNotificationStore) (ids : List TaskId) (t : TaskId) :
    (s.reorder ids).list t = s.list t := by
  simp [list, reorder]

theorem reorder_valid {s : PushNotificationStore} (h : Valid s) (ids : List TaskId) :
    Valid (s.reorder ids) := by
  rw [valid_iff] at h ⊢
  intro t cfg hc
  exact h t cfg (by simpa using hc)

theorem get_eq_find (s : PushNotificationStore) (t : TaskId) (id : PushNotificationId) :
    s.get t id = (s.list t).find? fun c => c.id = id := by
  unfold get list
  cases s.configs.find t <;> rfl

/-- A creation fails and changes nothing, or appends to its task's list. -/
theorem create_cases (parse : UrlParser) (s : PushNotificationStore) (id : PushNotificationId)
    (taskId : TaskId) (url token : String) (authentication : Option PushNotificationAuth) :
    (∃ e, s.create parse id taskId url token authentication = (.error e, s)) ∨
    s.create parse id taskId url token authentication =
      (.ok ⟨id, taskId, url, token, authentication⟩,
        ⟨push s.configs ⟨id, taskId, url, token, authentication⟩⟩) := by
  unfold create
  cases parse url with
  | error e => exact .inl ⟨_, rfl⟩
  | ok scheme =>
    by_cases h : scheme ≠ "http" ∧ scheme ≠ "https"
    · exact .inl ⟨_, if_pos h⟩
    · exact .inr (if_neg h)

/-- A deletion tells whether the task's list has the id. -/
theorem delete_eq_true (s : PushNotificationStore) (taskId : TaskId) (id : PushNotificationId) :
    (s.delete taskId id).1 = true ↔ ∃ cfg ∈ s.list taskId, cfg.id = id := by
  unfold delete list
  cases s.configs.find taskId with
  | none => simp
  | some v =>
    have hkept : (v.filter fun c => c.id ≠ id).length < v.length ↔
        ∃ cfg ∈ v, ¬ decide (cfg.id ≠ id) = true := List.length_filter_lt_length_iff_exists
    simp only [decide_eq_true_eq, Option.getD_some, hkept, not_not]

/-! ## No empty entries -/

/-- A task without configurations has no entry. -/
def Filled (s : PushNotificationStore) : Prop := ∀ t, s.configs.find t ≠ some []

theorem new_filled : Filled new := by
  intro t h
  cases h

theorem push_filled {configs : HashTable TaskId (List PushNotificationConfig)}
    (h : Filled ⟨configs⟩) (cfg : PushNotificationConfig) : Filled ⟨push configs cfg⟩ := by
  intro t
  rw [push, HashTable.find_alter]
  split
  · simp
  · exact h t

theorem create_filled {s : PushNotificationStore} (h : Filled s) (parse : UrlParser)
    (id : PushNotificationId) (taskId : TaskId) (url token : String)
    (authentication : Option PushNotificationAuth) :
    Filled (create parse s id taskId url token authentication).2 := by
  rcases create_cases parse s id taskId url token authentication with ⟨e, he⟩ | he
  · rw [he]
    exact h
  · rw [he]
    exact push_filled h _

theorem delete_filled {s : PushNotificationStore} (h : Filled s) (taskId : TaskId)
    (id : PushNotificationId) : Filled (s.delete taskId id).2 := by
  unfold delete
  cases hf : s.configs.find taskId with
  | none => exact h
  | some v =>
    intro t
    by_cases hkept : (v.filter fun c => c.id ≠ id).isEmpty = true
    · simp only [if_pos hkept, HashTable.find_erase]
      split
      · simp
      · exact h t
    · simp only [if_neg hkept, HashTable.find_modify]
      split
      · rename_i ht
        rw [ht, hf, Option.map_some]
        intro hnil
        exact hkept (List.isEmpty_iff.mpr (Option.some.inj hnil))
      · exact h t

theorem restore_filled (s : PushNotificationStore) (cfgs : List PushNotificationConfig) :
    Filled (s.restore cfgs) := by
  have run : ∀ configs, Filled ⟨configs⟩ → Filled ⟨cfgs.foldl push configs⟩ := by
    induction cfgs with
    | nil => exact fun _ h => h
    | cons cfg cfgs ih => exact fun _ h => ih _ (push_filled h cfg)
  exact run .empty new_filled

theorem reorder_filled {s : PushNotificationStore} (h : Filled s) (ids : List TaskId) :
    Filled (s.reorder ids) := by
  intro t
  rw [reorder, HashTable.find_reorder]
  exact h t

/-- A deletion that removes nothing changes nothing. -/
theorem delete_of_false {s : PushNotificationStore} (h : Filled s) {taskId : TaskId}
    {id : PushNotificationId} (hd : (s.delete taskId id).1 = false) :
    (s.delete taskId id).2 = s := by
  unfold delete at hd ⊢
  cases hf : s.configs.find taskId with
  | none => rfl
  | some v =>
    rw [hf] at hd
    have hkept : (v.filter fun c => c.id ≠ id) = v :=
      List.filter_sublist.eq_of_length_le (Nat.not_lt.mp (of_decide_eq_false hd))
    have hne : ¬ v.isEmpty = true := by
      intro hempty
      exact h taskId (hf.trans (congrArg some (List.isEmpty_iff.mp hempty)))
    simp only [hkept, if_neg hne, HashTable.modify_eq_self hf]

/-! ## Flattening and restoring -/

theorem list_restore (s : PushNotificationStore) (cfgs : List PushNotificationConfig) (t : TaskId) :
    (s.restore cfgs).list t = cfgs.filter fun cfg => cfg.taskId = t := by
  have run : ∀ configs, list ⟨cfgs.foldl push configs⟩ t =
      list ⟨configs⟩ t ++ cfgs.filter fun cfg => cfg.taskId = t := by
    induction cfgs with
    | nil => intro configs; simp
    | cons cfg cfgs ih =>
      intro configs
      rw [List.foldl_cons, ih, list_push, List.append_assoc]
      congr 1
      by_cases h : cfg.taskId = t <;> simp [h]
  exact run .empty

/-- Restoring the flattened store gives back every task's list, in order. -/
theorem list_restore_all {src : PushNotificationStore} (h : Valid src) (s : PushNotificationStore)
    (t : TaskId) : (s.restore src.all).list t = src.list t := by
  rw [list_restore]
  exact HashTable.flatMap_filter src.configs PushNotificationConfig.taskId h t

theorem restore_all_valid {src : PushNotificationStore} (h : Valid src)
    (s : PushNotificationStore) : Valid (s.restore src.all) := by
  rw [valid_iff] at h ⊢
  intro t cfg hc
  exact h t cfg (list_restore_all (valid_iff.mpr h) s t ▸ hc)

end PushNotificationStore

end Trumpet
