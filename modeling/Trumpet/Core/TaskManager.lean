import Trumpet.Core.Bus
import Trumpet.Core.Error
import Trumpet.Lib.KeyedMap

/-! The task store: every task by id, a secondary index by context, and the two
channels on which task events go out. -/

namespace Trumpet

/-- Events on the task-scoped channel. -/
inductive TaskEvent where
  | taskCreated (task : Task)
  | taskStatusChanged (taskId : TaskId) (oldState newState : TaskState)
  | taskArtifactAdded (taskId : TaskId) (artifactId : ArtifactId)
  deriving Repr

/-- The bus event that mirrors a task event. -/
def TaskEvent.mirror : TaskEvent → Event
  | taskCreated task => .taskCreated task
  | taskStatusChanged taskId oldState newState => .taskStatusChanged taskId oldState newState
  | taskArtifactAdded taskId artifactId => .taskArtifactAdded taskId artifactId

/-- `eventTx` is the log of the task-scoped channel, as `bus` is of the global one. -/
structure TaskManager where
  tasks : KeyedMap Task.id
  contextIndex : HashTable ContextId (List TaskId)
  bus : MessageBus
  eventTx : List TaskEvent

/-- The identifiers and the instant a task creation draws. -/
structure Mint where
  id : TaskId
  contextId : ContextId
  now : DateTime

/-- The arguments of a task creation. -/
structure NewTask where
  message : TaskMessage
  contextId : Option ContextId
  assignee : Option AgentId
  creator : Option AgentId
  metadata : Option Json
  deadline : Option DateTime

/-- The task as an accepted status update leaves it. -/
def Task.moveTo (t : Task) (newState : TaskState) (message : Option TaskMessage)
    (now : DateTime) : Task :=
  { t with
    status := ⟨newState, message, now⟩
    history := t.history ++ message.toList }

def Task.attach (t : Task) (artifact : Artifact) : Task :=
  { t with artifacts := t.artifacts ++ [artifact] }

@[simp] theorem Task.moveTo_id (t : Task) (new : TaskState) (msg : Option TaskMessage)
    (now : DateTime) : (t.moveTo new msg now).id = t.id := rfl

@[simp] theorem Task.attach_id (t : Task) (artifact : Artifact) : (t.attach artifact).id = t.id :=
  rfl

def TaskFilter.matches (filter : TaskFilter) (t : Task) : Bool :=
  filter.state.all (fun s => t.status.state = s) &&
    filter.assignee.all (fun a => t.assignee = some a)

namespace TaskManager

def new : TaskManager := ⟨.empty, .empty, .new, []⟩

/-- Mirror to the global bus, then send on the task-scoped channel. -/
def publish (self : TaskManager) (event : TaskEvent) : TaskManager :=
  { self with
    bus := self.bus.publish event.mirror
    eventTx := self.eventTx ++ [event] }

/-- Add `task` to its context's entry of the secondary index. -/
def indexTask (index : HashTable ContextId (List TaskId)) (task : Task) :
    HashTable ContextId (List TaskId) :=
  index.alter task.contextId [] (· ++ [task.id])

def createTaskWithDeadline (self : TaskManager) (mint : Mint) (args : NewTask) :
    Except Error Task × TaskManager :=
  let task : Task :=
    { id := mint.id
      contextId := args.contextId.getD mint.contextId
      status := ⟨.submitted, some args.message, mint.now⟩
      history := [args.message]
      artifacts := []
      assignee := args.assignee
      creator := args.creator
      metadata := args.metadata
      deadline := args.deadline }
  let self := { self with
    contextIndex := indexTask self.contextIndex task
    tasks := self.tasks.insert task }
  (.ok task, self.publish (.taskCreated task))

def get (self : TaskManager) (id : TaskId) : Option Task := self.tasks.get id

def list (self : TaskManager) : List Task := self.tasks.values

/-- The context index supplies the candidates when the filter names a context;
the remaining fields are checked on each candidate. -/
def listFiltered (self : TaskManager) (filter : TaskFilter) : List Task :=
  let candidates := match filter.contextId with
    | some ctx => ((self.contextIndex.find ctx).getD []).filterMap self.tasks.get
    | none => self.tasks.values
  candidates.filter filter.matches

def updateStatus (self : TaskManager) (taskId : TaskId) (newState : TaskState)
    (message : Option TaskMessage) (now : DateTime) : Except Error Task × TaskManager :=
  match self.tasks.get taskId with
  | none => (.error (.taskNotFound taskId.toString), self)
  | some task =>
    let oldState := task.status.state
    if oldState.isTerminal then
      (.error (.taskAlreadyTerminal taskId.toString oldState.debug), self)
    else if !oldState.canTransitionTo newState then
      (.error (.taskInvalidTransition taskId.toString oldState.debug newState.debug), self)
    else
      let task := task.moveTo newState message now
      let self := { self with tasks := self.tasks.insert task }
      (.ok task, self.publish (.taskStatusChanged taskId oldState newState))

def addArtifact (self : TaskManager) (taskId : TaskId) (artifact : Artifact) :
    Except Error Task × TaskManager :=
  match self.tasks.get taskId with
  | none => (.error (.taskNotFound taskId.toString), self)
  | some task =>
    if task.status.state.isTerminal then
      (.error (.taskAlreadyTerminal taskId.toString task.status.state.debug), self)
    else
      let task := task.attach artifact
      let self := { self with tasks := self.tasks.insert task }
      (.ok task, self.publish (.taskArtifactAdded taskId artifact.id))

def cancel (self : TaskManager) (taskId : TaskId) (message : Option TaskMessage)
    (now : DateTime) : Except Error Task × TaskManager :=
  self.updateStatus taskId .canceled message now

def tasksForAgent (self : TaskManager) (agentId : AgentId) : List Task :=
  self.tasks.values.filter fun t => t.assignee = some agentId && !t.status.state.isTerminal

/-- Drop all tasks and index entries and repopulate, publishing nothing. -/
def restore (self : TaskManager) (tasks : List Task) : TaskManager :=
  { self with
    contextIndex := tasks.foldl indexTask .empty
    tasks := KeyedMap.empty.insertAll tasks }

/-- Iterate the tasks in another order. -/
def reorder (self : TaskManager) (ids : List TaskId) : TaskManager :=
  { self with tasks := self.tasks.reorder ids }

/-! ## What each operation does -/

@[simp] theorem publish_tasks (m : TaskManager) (e : TaskEvent) :
    (m.publish e).tasks = m.tasks := rfl

@[simp] theorem publish_contextIndex (m : TaskManager) (e : TaskEvent) :
    (m.publish e).contextIndex = m.contextIndex := rfl

@[simp] theorem publish_eventTx (m : TaskManager) (e : TaskEvent) :
    (m.publish e).eventTx = m.eventTx ++ [e] := rfl

@[simp] theorem publish_published (m : TaskManager) (e : TaskEvent) :
    (m.publish e).bus.published = m.bus.published ++ [e.mirror] := rfl

/-- A status update either fails and changes nothing, or takes one edge of the
state graph on one task and announces it. -/
theorem updateStatus_cases (m : TaskManager) (id : TaskId) (new : TaskState)
    (msg : Option TaskMessage) (now : DateTime) :
    (∃ e, m.updateStatus id new msg now = (.error e, m)) ∨
    ∃ t, m.get id = some t ∧ TaskState.Edge t.status.state new ∧
      m.updateStatus id new msg now =
        (.ok (t.moveTo new msg now),
          { m with tasks := m.tasks.insert (t.moveTo new msg now) }.publish
            (.taskStatusChanged id t.status.state new)) := by
  unfold updateStatus get
  cases hg : m.tasks.get id with
  | none => exact .inl ⟨_, rfl⟩
  | some t =>
    simp only
    split
    · exact .inl ⟨_, rfl⟩
    · split
      · exact .inl ⟨_, rfl⟩
      · rename_i h
        have h : t.status.state.canTransitionTo new = true := by simpa using h
        exact .inr ⟨t, rfl, (TaskState.canTransitionTo_iff _ _).mp h, rfl⟩

/-- A live task takes every edge of the graph when asked to. -/
theorem updateStatus_of_edge {m : TaskManager} {id : TaskId} {t : Task} (hg : m.get id = some t)
    {new : TaskState} (h : TaskState.Edge t.status.state new) (msg : Option TaskMessage)
    (now : DateTime) :
    m.updateStatus id new msg now =
      (.ok (t.moveTo new msg now),
        { m with tasks := m.tasks.insert (t.moveTo new msg now) }.publish
          (.taskStatusChanged id t.status.state new)) := by
  have hg : m.tasks.get id = some t := hg
  simp [updateStatus, hg, h.not_terminal, (TaskState.canTransitionTo_iff _ _).mpr h]

theorem addArtifact_cases (m : TaskManager) (id : TaskId) (artifact : Artifact) :
    (∃ e, m.addArtifact id artifact = (.error e, m)) ∨
    ∃ t, m.get id = some t ∧ t.terminal = false ∧
      m.addArtifact id artifact =
        (.ok (t.attach artifact),
          { m with tasks := m.tasks.insert (t.attach artifact) }.publish
            (.taskArtifactAdded id artifact.id)) := by
  unfold addArtifact get
  cases hg : m.tasks.get id with
  | none => exact .inl ⟨_, rfl⟩
  | some t =>
    simp only
    split
    · exact .inl ⟨_, rfl⟩
    · rename_i h
      exact .inr ⟨t, rfl, by simpa [Task.terminal] using h, rfl⟩

/-- The task a creation makes. -/
def created (mint : Mint) (args : NewTask) : Task :=
  ⟨mint.id, args.contextId.getD mint.contextId, ⟨.submitted, some args.message, mint.now⟩, [],
    [args.message], args.metadata, args.assignee, args.creator, args.deadline⟩

theorem createTaskWithDeadline_eq (m : TaskManager) (mint : Mint) (args : NewTask) :
    m.createTaskWithDeadline mint args = (.ok (created mint args),
      { m with
        contextIndex := indexTask m.contextIndex (created mint args)
        tasks := m.tasks.insert (created mint args) }.publish
          (.taskCreated (created mint args))) := rfl

/-- What a creation does to each task. -/
theorem get_createTaskWithDeadline (m : TaskManager) (mint : Mint) (args : NewTask) (k : TaskId) :
    (m.createTaskWithDeadline mint args).2.get k =
      if k = mint.id then some (created mint args) else m.get k := by
  rw [createTaskWithDeadline_eq]
  exact KeyedMap.get_insert m.tasks (created mint args) k

/-- What a status update does to each task: the one it names takes the edge, if
there is one. -/
theorem get_updateStatus (m : TaskManager) (id : TaskId) (new : TaskState)
    (msg : Option TaskMessage) (now : DateTime) (k : TaskId) :
    (m.updateStatus id new msg now).2.get k =
      if k = id then (m.get k).map fun t =>
        if t.status.state.canTransitionTo new then t.moveTo new msg now else t
      else m.get k := by
  cases hg : m.get id with
  | none =>
    have hg' : m.tasks.get id = none := hg
    rw [updateStatus, hg']
    by_cases hk : k = id
    · subst hk; rw [if_pos rfl, hg]; rfl
    · rw [if_neg hk]
  | some t =>
    by_cases he : t.status.state.canTransitionTo new = true
    · rw [updateStatus_of_edge hg ((TaskState.canTransitionTo_iff _ _).mp he)]
      have hid : (t.moveTo new msg now).id = id :=
        (t.moveTo_id ..).trans (KeyedMap.key_of_get hg)
      simp only [get, publish_tasks, KeyedMap.get_insert, hid]
      split
      · rename_i hk; subst hk
        rw [show m.tasks.get k = some t from hg, Option.map_some, if_pos he]
      · rfl
    · rcases updateStatus_cases m id new msg now with ⟨e, h⟩ | ⟨u, hu, edge, _⟩
      · rw [h]
        split
        · rename_i hk; subst hk; rw [hg, Option.map_some, if_neg he]
        · rfl
      · rw [hg] at hu
        cases hu
        exact absurd ((TaskState.canTransitionTo_iff _ _).mpr edge) he

/-- A failed status update or artifact addition leaves the whole manager alone. -/
theorem updateStatus_error {m : TaskManager} {id : TaskId} {new : TaskState}
    {msg : Option TaskMessage} {now : DateTime} {e : Error}
    (h : (m.updateStatus id new msg now).1 = .error e) :
    (m.updateStatus id new msg now).2 = m := by
  rcases updateStatus_cases m id new msg now with ⟨_, heq⟩ | ⟨_, _, _, heq⟩
  · rw [heq]
  · rw [heq] at h; cases h

theorem addArtifact_error {m : TaskManager} {id : TaskId} {artifact : Artifact} {e : Error}
    (h : (m.addArtifact id artifact).1 = .error e) : (m.addArtifact id artifact).2 = m := by
  rcases addArtifact_cases m id artifact with ⟨_, heq⟩ | ⟨_, _, _, heq⟩
  · rw [heq]
  · rw [heq] at h; cases h

@[simp] theorem get_reorder (m : TaskManager) (ids : List TaskId) (id : TaskId) :
    (m.reorder ids).get id = m.get id :=
  KeyedMap.get_reorder _ _ _

/-- Restoring a list with the tasks of `src`, in any order, restores its lookups. -/
theorem get_restore {src : TaskManager} {tasks : List Task} (h : tasks.Perm src.list)
    (m : TaskManager) (id : TaskId) : (m.restore tasks).get id = src.get id :=
  KeyedMap.get_insertAll_perm src.tasks h id

theorem id_of_get {m : TaskManager} {id : TaskId} {t : Task} (h : m.get id = some t) : t.id = id :=
  KeyedMap.key_of_get h

theorem mem_list {m : TaskManager} {t : Task} : t ∈ m.list ↔ m.get t.id = some t :=
  KeyedMap.mem_values

end TaskManager

end Trumpet
