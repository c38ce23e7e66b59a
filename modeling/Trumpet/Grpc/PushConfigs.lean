import Trumpet.Core.Lifecycle
import Trumpet.Core.PushNotifications
import Trumpet.Grpc.Convert
import Trumpet.Lib.Ledger
import Trumpet.Lib.Rewind

/-! The four push notification calls of the A2A service, over runs in which tasks
change and snapshots are restored. -/

namespace Trumpet

namespace Proto

structure AuthenticationInfo where
  scheme : String
  credentials : String

structure TaskPushNotificationConfig where
  tenant : String
  id : String
  taskId : String
  url : String
  token : String
  authentication : Option AuthenticationInfo

/-- What a get and a delete request name. -/
structure PushConfigRequest where
  taskId : String
  id : String

structure ListTaskPushNotificationConfigsResponse where
  configs : List TaskPushNotificationConfig
  nextPageToken : String

end Proto

namespace A2aService

variable (parse : String → Option Uuid)

def parseTaskId (text : String) : Except Status TaskId :=
  match parse text with
  | some id => .ok ⟨id⟩
  | none => .error (.invalidArgument "invalid task id")

def parseConfigId (text : String) : Except Status PushNotificationId :=
  match parse text with
  | some id => .ok ⟨id⟩
  | none => .error (.invalidArgument "invalid push notification config id")

def pushTarget (req : Proto.PushConfigRequest) : Except Status (TaskId × PushNotificationId) := do
  let taskId ← parseTaskId parse req.taskId
  let id ← parseConfigId parse req.id
  pure (taskId, id)

def pushConfigToProto (cfg : PushNotificationConfig) : Proto.TaskPushNotificationConfig where
  tenant := ""
  id := cfg.id.toString
  taskId := cfg.taskId.toString
  url := cfg.url
  token := cfg.token
  authentication := cfg.authentication.map fun a => ⟨a.scheme, a.credentials⟩

/-- A create call that has found its task. -/
structure PushCreation where
  taskId : TaskId
  url : String
  token : String
  authentication : Option PushNotificationAuth
  deriving DecidableEq

/-- The create call under the task lock. -/
def checkPushCreation (tasks : TaskManager) (req : Proto.TaskPushNotificationConfig) :
    Except Status PushCreation := do
  let taskId ← parseTaskId parse req.taskId
  match tasks.get taskId with
  | none => throw (.notFound (Error.taskNotFound taskId.toString).toString)
  | some _ =>
    pure ⟨taskId, req.url, req.token, req.authentication.map fun a => ⟨a.scheme, a.credentials⟩⟩

/-- The status a refused creation is reported with. -/
def creationStatus : Error → Status
  | .invalidInput reason => .invalidArgument reason
  | other => .internal other.toString

def PushCreation.run (parseUrl : UrlParser) (store : PushNotificationStore)
    (id : PushNotificationId) (c : PushCreation) :
    Except Error PushNotificationConfig × PushNotificationStore :=
  store.create parseUrl id c.taskId c.url c.token c.authentication

/-- The create call under the store lock. -/
def finishPushCreation (parseUrl : UrlParser) (store : PushNotificationStore)
    (id : PushNotificationId) (c : PushCreation) :
    Except Status Proto.TaskPushNotificationConfig × PushNotificationStore :=
  let r := c.run parseUrl store id
  ((r.1.mapError creationStatus).map pushConfigToProto, r.2)

def getTaskPushNotificationConfig (store : PushNotificationStore) (req : Proto.PushConfigRequest) :
    Except Status Proto.TaskPushNotificationConfig := do
  let (taskId, id) ← pushTarget parse req
  match store.get taskId id with
  | none => throw (.notFound "push notification config not found")
  | some cfg => pure (pushConfigToProto cfg)

def listTaskPushNotificationConfigs (store : PushNotificationStore) (taskId : String) :
    Except Status Proto.ListTaskPushNotificationConfigsResponse := do
  let taskId ← parseTaskId parse taskId
  pure ⟨(store.list taskId).map pushConfigToProto, ""⟩

def deleteTaskPushNotificationConfig (store : PushNotificationStore)
    (req : Proto.PushConfigRequest) : Except Status Unit × PushNotificationStore :=
  match pushTarget parse req with
  | .error e => (.error e, store)
  | .ok (taskId, id) =>
    let (removed, store) := store.delete taskId id
    (if removed then .ok () else .error (.notFound "push notification config not found"), store)

end A2aService

open Ledger (Entry)

/-- The tasks and the store, the create calls between their two locks, and what was
created and deleted successfully so far. -/
structure PushService where
  tasks : TaskManager
  store : PushNotificationStore
  pending : List A2aService.PushCreation
  log : List (Entry PushNotificationConfig (TaskId × PushNotificationId))

namespace PushService

def new : PushService := ⟨.new, .new, [], []⟩

def key (cfg : PushNotificationConfig) : TaskId × PushNotificationId := (cfg.taskId, cfg.id)

/-- The configurations created for a task and not deleted since, in order. -/
def standing (s : PushService) (t : TaskId) : List PushNotificationConfig :=
  (Ledger.standing key s.log).filter fun cfg => cfg.taskId = t

/-- The steps of a run; `cycle` restores what the stores list at that moment. -/
inductive Op where
  | task (op : TaskOp)
  | check (req : Proto.TaskPushNotificationConfig)
  /-- The `i`-th pending create call takes the store lock. -/
  | insert (i : Nat) (id : PushNotificationId)
  | get (req : Proto.PushConfigRequest)
  | list (taskId : String)
  | delete (req : Proto.PushConfigRequest)
  | cycle
  | reorder (ids : List TaskId)

variable (parse : String → Option Uuid) (parseUrl : UrlParser)

/-- An identifier is minted that the task has no configuration under. -/
def next (s : PushService) : Op → Option PushService
  | .task op =>
    if s.tasks.Enabled op then some { s with tasks := (s.tasks.perform op).2 } else none
  | .check req =>
    match A2aService.checkPushCreation parse s.tasks req with
    | .error _ => some s
    | .ok c => some { s with pending := s.pending ++ [c] }
  | .insert i id =>
    match s.pending[i]? with
    | none => none
    | some c =>
      if (s.store.get c.taskId id).isSome then none
      else
        let r := c.run parseUrl s.store id
        some { s with
          store := (A2aService.finishPushCreation parseUrl s.store id c).2
          pending := s.pending.eraseIdx i
          log := s.log ++ r.1.toOption.toList.map .added }
  | .get _ | .list _ => some s
  | .delete req =>
    match A2aService.pushTarget parse req with
    | .error _ => some s
    | .ok (taskId, id) => some { s with
        store := (A2aService.deleteTaskPushNotificationConfig parse s.store req).2
        log := s.log ++ if (s.store.delete taskId id).1 then [.removed (taskId, id)] else [] }
  | .cycle => some { s with
      tasks := s.tasks.restore s.tasks.list
      store := s.store.restore s.store.all }
  | .reorder ids => some { s with store := s.store.reorder ids }

/-- A daemon started from the snapshot of `src`; the calls in flight are gone, and so
is what happened since. -/
def load (_now src : PushService) : PushService :=
  ⟨TaskManager.new.restore src.tasks.list, PushNotificationStore.new.restore src.store.all, [],
    src.log⟩

/-! ## The invariant -/

/-- The store is the log, task by task, and every task named by either or by a
pending call exists. -/
structure Sound (s : PushService) : Prop where
  lists : ∀ t, s.store.list t = s.standing t
  filed : s.store.Valid
  distinct : ((Ledger.standing key s.log).map key).Nodup
  stored : ∀ cfg ∈ Ledger.standing key s.log, (s.tasks.get cfg.taskId).isSome = true
  pending : ∀ c ∈ s.pending, (s.tasks.get c.taskId).isSome = true

theorem new_sound : Sound new := by
  refine ⟨fun _ => rfl, PushNotificationStore.new_valid, List.nodup_nil, ?_, ?_⟩
  · intro cfg hc
    cases hc
  · intro c hc
    cases hc

variable {s t : PushService}

/-- Tasks that stay keep the invariant. -/
theorem Sound.of_tasks (h : Sound s) {tasks : TaskManager}
    (keep : ∀ id, (s.tasks.get id).isSome = true → (tasks.get id).isSome = true) :
    Sound { s with tasks := tasks } :=
  ⟨h.lists, h.filed, h.distinct, fun cfg hc => keep _ (h.stored cfg hc),
    fun c hc => keep _ (h.pending c hc)⟩

/-- So does a store with the same lists. -/
theorem Sound.of_store (h : Sound s) {store : PushNotificationStore} (hvalid : store.Valid)
    (same : ∀ t, store.list t = s.store.list t) : Sound { s with store := store } :=
  ⟨fun t => (same t).trans (h.lists t), hvalid, h.distinct, h.stored, h.pending⟩

theorem Sound.of_pending (h : Sound s) {pending : List A2aService.PushCreation}
    (hsub : ∀ c ∈ pending, c ∈ s.pending) : Sound { s with pending := pending } :=
  ⟨h.lists, h.filed, h.distinct, h.stored, fun c hc => h.pending c (hsub c hc)⟩

theorem task_sound (h : Sound s) {op : TaskOp} (he : s.tasks.Enabled op = true) :
    Sound { s with tasks := (s.tasks.perform op).2 } := by
  apply h.of_tasks
  intro id hsome
  obtain ⟨t, ht⟩ := Option.isSome_iff_exists.mp hsome
  obtain ⟨u, hu, -⟩ := (TaskManager.perform_steps he).evolves id t ht
  rw [hu]
  rfl

/-- A call that passes the check names a task. -/
theorem checked {tasks : TaskManager} {req : Proto.TaskPushNotificationConfig}
    {c : A2aService.PushCreation} (h : A2aService.checkPushCreation parse tasks req = .ok c) :
    (tasks.get c.taskId).isSome = true := by
  unfold A2aService.checkPushCreation at h
  cases hp : A2aService.parseTaskId parse req.taskId with
  | error e =>
    rw [hp] at h
    cases h
  | ok taskId =>
    rw [hp] at h
    cases hg : tasks.get taskId with
    | none =>
      simp only [bind, Except.bind, hg] at h
      cases h
    | some task =>
      simp only [bind, Except.bind, hg] at h
      cases h
      exact hg ▸ rfl

theorem check_sound (h : Sound s) {req : Proto.TaskPushNotificationConfig}
    (hs : s.next parse parseUrl (.check req) = some t) : Sound t := by
  simp only [next] at hs
  cases hc : A2aService.checkPushCreation parse s.tasks req with
  | error e =>
    rw [hc] at hs
    cases hs
    exact h
  | ok c =>
    rw [hc] at hs
    cases hs
    refine ⟨h.lists, h.filed, h.distinct, h.stored, ?_⟩
    intro d hd
    rcases List.mem_append.mp hd with hd | hd
    · exact h.pending d hd
    · rw [List.mem_singleton.mp hd]
      exact checked parse hc

/-- What stands under a task's id is what the store finds there. -/
theorem Sound.fresh (h : Sound s) {taskId : TaskId} {id : PushNotificationId}
    (hget : s.store.get taskId id = none) :
    ∀ cfg ∈ Ledger.standing key s.log, key cfg ≠ (taskId, id) := by
  intro cfg hcfg hkey
  obtain ⟨rfl, rfl⟩ := Prod.mk.inj hkey
  rw [PushNotificationStore.get_eq_find, h.lists] at hget
  have hmem : cfg ∈ s.standing cfg.taskId := List.mem_filter.mpr ⟨hcfg, decide_eq_true rfl⟩
  exact absurd (decide_eq_true rfl) (List.find?_eq_none.mp hget cfg hmem)

/-- A creation for a task that exists, under an id its list does not have. -/
theorem added_sound (h : Sound s) {cfg : PushNotificationConfig}
    (htask : (s.tasks.get cfg.taskId).isSome = true)
    (hget : s.store.get cfg.taskId cfg.id = none) (pending : List A2aService.PushCreation)
    (hsub : ∀ c ∈ pending, c ∈ s.pending) :
    Sound { s with
      store := ⟨PushNotificationStore.push s.store.configs cfg⟩
      pending := pending
      log := s.log ++ [.added cfg] } := by
  have hlists : ∀ u, PushNotificationStore.list ⟨PushNotificationStore.push s.store.configs cfg⟩ u =
      (Ledger.standing key (s.log ++ [.added cfg])).filter fun c => c.taskId = u := by
    intro u
    rw [PushNotificationStore.list_push, Ledger.standing_added, List.filter_append]
    congr 1
    · exact h.lists u
    · by_cases hu : cfg.taskId = u <;> simp [hu]
  refine ⟨hlists, ?_, Ledger.distinct_added h.distinct (h.fresh hget), ?_, ?_⟩
  · rw [PushNotificationStore.valid_iff]
    intro u c hc
    rw [hlists] at hc
    exact of_decide_eq_true (List.mem_filter.mp hc).2
  · intro c hc
    rw [Ledger.standing_added] at hc
    rcases List.mem_append.mp hc with hc | hc
    · exact h.stored c hc
    · rw [List.mem_singleton.mp hc]
      exact htask
  · intro c hc
    exact h.pending c (hsub c hc)

theorem insert_sound (h : Sound s) {i : Nat} {id : PushNotificationId}
    (hs : s.next parse parseUrl (.insert i id) = some t) : Sound t := by
  simp only [next] at hs
  cases hp : s.pending[i]? with
  | none =>
    rw [hp] at hs
    cases hs
  | some c =>
    rw [hp] at hs
    simp only [Option.ite_none_left_eq_some, Option.some.injEq] at hs
    obtain ⟨hfresh, rfl⟩ := hs
    have hget := Option.not_isSome_iff_eq_none.mp hfresh
    have hsub : ∀ d ∈ s.pending.eraseIdx i, d ∈ s.pending := fun d => List.mem_of_mem_eraseIdx
    have hstore : (A2aService.finishPushCreation parseUrl s.store id c).2 =
        (c.run parseUrl s.store id).2 := rfl
    rw [hstore]
    unfold A2aService.PushCreation.run
    rcases PushNotificationStore.create_cases parseUrl s.store id c.taskId c.url c.token
      c.authentication with ⟨e, he⟩ | he
    · rw [he]
      simp only [Except.toOption, Option.toList, List.map_nil, List.append_nil]
      exact h.of_pending hsub
    · rw [he]
      exact added_sound h (h.pending c (List.mem_of_getElem? hp)) hget _ hsub

/-- Without the id in its task's list a deletion changes no list. -/
theorem list_delete_of_false {store : PushNotificationStore} {taskId : TaskId}
    {id : PushNotificationId} (h : (store.delete taskId id).1 = false) (u : TaskId) :
    (store.delete taskId id).2.list u = store.list u := by
  rw [PushNotificationStore.list_delete]
  by_cases hu : u = taskId
  · subst hu
    rw [if_pos rfl]
    apply List.filter_eq_self.mpr
    intro cfg hcfg
    apply decide_eq_true
    intro hid
    have htrue := (PushNotificationStore.delete_eq_true store u id).mpr ⟨cfg, hcfg, hid⟩
    rw [h] at htrue
    cases htrue
  · rw [if_neg hu]

theorem delete_sound (h : Sound s) (taskId : TaskId) (id : PushNotificationId) :
    Sound { s with
      store := (s.store.delete taskId id).2
      log := s.log ++ if (s.store.delete taskId id).1 then [.removed (taskId, id)] else [] } := by
  have hvalid := PushNotificationStore.delete_valid h.filed taskId id
  cases hd : (s.store.delete taskId id).1 with
  | false =>
    simp only [Bool.false_eq_true, if_false, List.append_nil]
    exact h.of_store hvalid (list_delete_of_false hd)
  | true =>
    simp only [if_true]
    have hstanding : Ledger.standing key (s.log ++ [.removed (taskId, id)]) = _ :=
      Ledger.standing_removed s.log (taskId, id)
    refine ⟨?_, hvalid, Ledger.distinct_removed h.distinct _, ?_, h.pending⟩
    · intro u
      rw [PushNotificationStore.list_delete, standing, hstanding, h.lists, standing,
        List.filter_filter]
      by_cases hu : u = taskId
      · subst hu
        rw [if_pos rfl, List.filter_filter]
        apply List.filter_congr
        intro cfg _
        by_cases ht : cfg.taskId = u <;> simp [key, ht]
      · rw [if_neg hu, List.filter_filter]
        apply List.filter_congr
        intro cfg _
        by_cases ht : cfg.taskId = u
        · have hne : key cfg ≠ (taskId, id) := fun hk => hu (ht.symm.trans (Prod.mk.inj hk).1)
          simp [ht, hne]
        · simp [ht]
    · intro cfg hcfg
      rw [hstanding] at hcfg
      exact h.stored cfg (List.mem_of_mem_filter hcfg)

theorem cycle_sound (h : Sound s) :
    Sound { s with
      tasks := s.tasks.restore s.tasks.list
      store := s.store.restore s.store.all } := by
  have hstore := h.of_store (PushNotificationStore.restore_all_valid h.filed s.store)
    (PushNotificationStore.list_restore_all h.filed s.store)
  apply hstore.of_tasks
  intro id hsome
  rw [TaskManager.get_restore (List.Perm.refl _)]
  exact hsome

theorem load_sound (h : Sound s) (now : PushService) : Sound (load now s) := by
  have hstore := h.of_store (PushNotificationStore.restore_all_valid h.filed .new)
    (PushNotificationStore.list_restore_all h.filed .new)
  have keep : ∀ id, (s.tasks.get id).isSome = true →
      ((TaskManager.new.restore s.tasks.list).get id).isSome = true := by
    intro id hsome
    rw [TaskManager.get_restore (List.Perm.refl _)]
    exact hsome
  exact (hstore.of_tasks keep).of_pending fun c hc => by cases hc

/-- Every step keeps the invariant. -/
theorem next_sound {op : Op} (h : Sound s) (hs : s.next parse parseUrl op = some t) : Sound t := by
  cases op with
  | task op =>
    simp only [next, Option.ite_none_right_eq_some, Option.some.injEq] at hs
    obtain ⟨he, rfl⟩ := hs
    exact task_sound h he
  | check req => exact check_sound parse parseUrl h hs
  | insert i id => exact insert_sound parse parseUrl h hs
  | get req | list taskId =>
    cases hs
    exact h
  | delete req =>
    simp only [next] at hs
    cases ht : A2aService.pushTarget parse req with
    | error e =>
      rw [ht] at hs
      cases hs
      exact h
    | ok target =>
      rw [ht] at hs
      cases hs
      simp only [A2aService.deleteTaskPushNotificationConfig, ht]
      exact delete_sound h target.1 target.2
  | cycle =>
    cases hs
    exact cycle_sound h
  | reorder ids =>
    cases hs
    exact h.of_store (PushNotificationStore.reorder_valid h.filed ids)
      (PushNotificationStore.list_reorder s.store ids)

/-! ## What the calls answer -/

/-- What a deletion does: it reports a removal exactly when the task's list loses the
one configuration with the id, and no other list changes. -/
structure DeletesExactly (store : PushNotificationStore) (t : TaskId) (id : PushNotificationId) :
    Prop where
  removes : (store.delete t id).1 = true ↔ ∃ before cfg after,
    store.list t = before ++ cfg :: after ∧ cfg.id = id ∧
      (store.delete t id).2.list t = before ++ after
  keeps : (store.delete t id).1 = false → ∀ u, (store.delete t id).2.list u = store.list u
  others : ∀ u, u ≠ t → (store.delete t id).2.list u = store.list u

theorem deletesExactly {store : PushNotificationStore} {t : TaskId}
    {m : KeyedMap PushNotificationConfig.id} (hm : m.values = store.list t)
    (id : PushNotificationId) : DeletesExactly store t id := by
  refine ⟨?_, list_delete_of_false, ?_⟩
  · rw [PushNotificationStore.delete_eq_true]
    constructor
    · intro ⟨cfg, hcfg, hid⟩
      obtain ⟨before, after, hsplit, hremove⟩ := m.remove_split (hm ▸ hcfg)
      refine ⟨before, cfg, after, hm ▸ hsplit, hid, ?_⟩
      rw [PushNotificationStore.list_delete, if_pos rfl, ← hremove, ← hm, ← hid]
      rfl
    · intro ⟨before, cfg, after, hsplit, hid, _⟩
      exact ⟨cfg, hsplit ▸ List.mem_append_right _ List.mem_cons_self, hid⟩
  · intro u hu
    rw [PushNotificationStore.list_delete, if_neg hu]

/-- The store of a state and what the calls answer there, told by the run's log. -/
structure Exact (s : PushService) : Prop where
  lists : ∀ t, s.store.list t = s.standing t
  filed : ∀ e ∈ s.store.configs.values, ∀ cfg ∈ e.2, cfg.taskId = e.1 ∧
    ∃ task, s.tasks.get e.1 = some task
  gets : ∀ t id cfg, s.store.get t id = some cfg ↔ cfg ∈ s.store.list t ∧ cfg.id = id
  deletes : ∀ t id, DeletesExactly s.store t id
  listing : ∀ text t, A2aService.parseTaskId parse text = .ok t →
    A2aService.listTaskPushNotificationConfigs parse s.store text =
      .ok ⟨(s.standing t).map A2aService.pushConfigToProto, ""⟩
  finding : ∀ req t id, A2aService.pushTarget parse req = .ok (t, id) →
    A2aService.getTaskPushNotificationConfig parse s.store req =
      ((s.standing t).find? fun cfg => cfg.id = id).elim
        (.error (.notFound "push notification config not found"))
        fun cfg => .ok (A2aService.pushConfigToProto cfg)
  deleting : ∀ req t id, A2aService.pushTarget parse req = .ok (t, id) →
    ((A2aService.deleteTaskPushNotificationConfig parse s.store req).1 = .ok () ↔
      (s.store.delete t id).1 = true)

/-- The ids of a task's configurations are distinct. -/
theorem Sound.ids_nodup (h : Sound s) (t : TaskId) :
    ((s.store.list t).map PushNotificationConfig.id).Nodup := by
  have hkeys : ((s.standing t).map key).Nodup :=
    h.distinct.sublist (List.filter_sublist.map key)
  have hpair : (s.standing t).map key =
      ((s.standing t).map PushNotificationConfig.id).map (Prod.mk t) := by
    rw [List.map_map]
    apply List.map_congr_left
    intro cfg hcfg
    have ht : cfg.taskId = t := of_decide_eq_true (List.mem_filter.mp hcfg).2
    exact congrArg (Prod.mk · cfg.id) ht
  rw [h.lists]
  rw [hpair] at hkeys
  exact hkeys.of_map _

/-- A task's configurations, by id. -/
def Sound.configs (h : Sound s) (t : TaskId) : KeyedMap PushNotificationConfig.id :=
  ⟨s.store.list t, h.ids_nodup t⟩

/-- Every configuration is stored under its own task, which exists. -/
theorem Sound.filed_stored (h : Sound s) : ∀ e ∈ s.store.configs.values, ∀ cfg ∈ e.2,
    cfg.taskId = e.1 ∧ ∃ task, s.tasks.get e.1 = some task := by
  intro e he cfg hcfg
  have hlist : cfg ∈ s.store.list e.1 := by
    rw [PushNotificationStore.list, HashTable.find_eq_some.mpr he]
    exact hcfg
  have hfiled := h.filed e he cfg hcfg
  rw [h.lists] at hlist
  have hsome := h.stored cfg (List.mem_filter.mp hlist).1
  rw [hfiled] at hsome
  exact ⟨hfiled, Option.isSome_iff_exists.mp hsome⟩

theorem Sound.exact (h : Sound s) : Exact parse s := by
  refine ⟨h.lists, h.filed_stored, ?_, fun t id => deletesExactly (m := h.configs t) rfl id,
    ?_, ?_, ?_⟩
  · intro t id cfg
    rw [PushNotificationStore.get_eq_find]
    exact KeyedMap.get_eq_some (m := h.configs t)
  · intro text t ht
    unfold A2aService.listTaskPushNotificationConfigs
    rw [ht, ← h.lists]
    rfl
  · intro req t id ht
    unfold A2aService.getTaskPushNotificationConfig
    rw [ht, ← h.lists, ← PushNotificationStore.get_eq_find]
    simp only [bind, Except.bind]
    cases s.store.get t id with
    | none => rfl
    | some cfg => rfl
  · intro req t id ht
    unfold A2aService.deleteTaskPushNotificationConfig
    rw [ht]
    simp only
    cases (s.store.delete t id).1 with
    | true => exact ⟨fun _ => rfl, fun _ => rfl⟩
    | false =>
      constructor
      · intro hok
        cases hok
      · intro htrue
        cases htrue

/-- What a client reads of a configuration. -/
structure Shows (proto : Proto.TaskPushNotificationConfig) (cfg : PushNotificationConfig) :
    Prop where
  id : proto.id = cfg.id.toString
  taskId : proto.taskId = cfg.taskId.toString
  url : proto.url = cfg.url
  token : proto.token = cfg.token
  authentication : proto.authentication.map (fun a => (a.scheme, a.credentials)) =
    cfg.authentication.map fun a => (a.scheme, a.credentials)

theorem shows_toProto (cfg : PushNotificationConfig) :
    Shows (A2aService.pushConfigToProto cfg) cfg :=
  ⟨rfl, rfl, rfl, rfl, by rw [A2aService.pushConfigToProto, Option.map_map]; rfl⟩

/-- A listing shows the standing configurations of its task, in their order. -/
theorem Exact.listing_shows (h : Exact parse s) {text : String} {t : TaskId}
    (ht : A2aService.parseTaskId parse text = .ok t) :
    ∃ reply, A2aService.listTaskPushNotificationConfigs parse s.store text = .ok reply ∧
      List.Forall₂ Shows reply.configs (s.standing t) :=
  ⟨_, h.listing text t ht, List.forall₂_map_left_iff.mpr
    (List.forall₂_same.mpr fun cfg _ => shows_toProto cfg)⟩

/-- A get shows a standing configuration of the id it names. -/
theorem Exact.finding_shows (h : Exact parse s) {req : Proto.PushConfigRequest} {t : TaskId}
    {id : PushNotificationId} (ht : A2aService.pushTarget parse req = .ok (t, id))
    {reply : Proto.TaskPushNotificationConfig}
    (hr : A2aService.getTaskPushNotificationConfig parse s.store req = .ok reply) :
    ∃ cfg ∈ s.standing t, cfg.id = id ∧ Shows reply cfg := by
  rw [h.finding req t id ht] at hr
  cases hf : (s.standing t).find? fun cfg => cfg.id = id with
  | none =>
    rw [hf] at hr
    cases hr
  | some cfg =>
    rw [hf] at hr
    cases hr
    have hid : decide (cfg.id = id) = true :=
      List.find?_some (p := fun c : PushNotificationConfig => decide (c.id = id)) hf
    exact ⟨cfg, List.mem_of_find?_eq_some hf, of_decide_eq_true hid, shows_toProto cfg⟩

/-- In every run of the four calls, of task operations, restore cycles and restarts
from earlier snapshots, the store is what the log tells. -/
theorem configs_exact {ls : List (Rewind.Label Op)} {r : Rewind.Run PushService}
    (h : Transition.exec (Rewind.step (next parse parseUrl) load) (Rewind.start new) ls = some r) :
    Exact parse r.current.now := by
  apply Sound.exact
  exact Rewind.invariant new_sound (fun _ _ _ => next_sound parse parseUrl)
    (fun _ now hs => load_sound hs now) h

/-! ## A sample run -/

def sampleTask : TaskId := ⟨.ofOctet 1⟩

/-- Reads the sample task's id and two configuration ids. -/
def sampleParse (text : String) : Option Uuid :=
  [Uuid.ofOctet 1, .ofOctet 3, .ofOctet 4].find? fun id => id.toString = text

def sampleRequest (url : String) : Proto.TaskPushNotificationConfig :=
  ⟨"", "", sampleTask.toString, url, "", none⟩

/-- Two configurations are created, one call's halves enclosing the other's; the
store is cycled and the first configuration deleted. -/
def sampleRun : List (Rewind.Label Op) :=
  [.op (.task (.create ⟨sampleTask, ⟨.ofOctet 2⟩, 0⟩
      ⟨⟨⟨.ofOctet 5⟩, .user, [], none⟩, none, none, none, none, none⟩)),
    .op (.check (sampleRequest "https://a/")), .op (.check (sampleRequest "https://b/")),
    .op (.insert 1 ⟨.ofOctet 3⟩), .op (.insert 0 ⟨.ofOctet 4⟩), .op .cycle,
    .op (.delete ⟨sampleTask.toString, (Uuid.ofOctet 3).toString⟩)]

def samplePush : PushNotificationConfig := ⟨⟨.ofOctet 4⟩, sampleTask, "https://a/", "", none⟩

theorem configs_exact_two_created :
    ∃ r, Transition.exec (Rewind.step (next sampleParse fun _ => .ok "https") load)
        (Rewind.start new) sampleRun = some r ∧
      Exact sampleParse r.current.now ∧ r.current.now.standing sampleTask = [samplePush] := by
  have h := @configs_exact sampleParse (fun _ => .ok "https") sampleRun _ rfl
  exact ⟨_, rfl, h, rfl⟩

end PushService

end Trumpet
