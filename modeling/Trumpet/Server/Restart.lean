import Trumpet.Core.TaskFacade
import Trumpet.Lib.Transition
import Trumpet.Server.State

/-! Restarts: a daemon started from a snapshot of any reachable state answers
every query as that state does. -/

namespace Trumpet

namespace AppState

/-- What the daemon does to its state. Identifiers and instants are drawn by the
caller; the `reorder` operations pick the iteration order of a map. -/
inductive Op where
  | registerAgent (id : AgentId) (now : DateTime) (name : String)
      (capabilities : Option AgentCapabilities)
  | heartbeat (id : AgentId) (now : DateTime)
  | deregisterAgent (id : AgentId)
  | flip (ids : List AgentId)
  | createConversation (id : ConversationId) (now : DateTime) (name : Option String)
      (participants : List AgentId)
  | sendMessage (id : MessageId) (now : DateTime) (conversationId : ConversationId)
      (sender : AgentId) (content : String)
  | registerTool (id : ToolId) (args : NewTool)
  | deregisterTool (id : ToolId)
  | createTask (mint : Mint) (args : NewTask)
  | updateStatus (id : TaskId) (new : TaskState) (message : Option TaskMessage) (now : DateTime)
  | cancel (id : TaskId) (message : Option TaskMessage) (now : DateTime)
  | addArtifact (id : TaskId) (artifact : Artifact)
  | failTasks (text : String) (todo : List (TaskId × TaskState)) (draw : Watchdog.Draws)
  | createPush (parse : UrlParser) (id : PushNotificationId) (taskId : TaskId)
      (url token : String) (authentication : Option PushNotificationAuth)
  | deletePush (taskId : TaskId) (id : PushNotificationId)
  | restart (ids : String → ToolId)
  | reorderAgents (ids : List AgentId)
  | reorderConversations (ids : List ConversationId)
  | reorderTools (ids : List ToolId)
  | reorderTasks (ids : List TaskId)
  | reorderPush (ids : List TaskId)

def isBuiltin (name : String) : Bool := builtinTools.any fun tool => tool.1 = name

/-- An operation that mints an identifier is enabled only for one not in use. No
request reaches `ToolRegistry::deregister`; it is allowed here for every tool that
is not built in. -/
def apply (s : AppState) : Op → Option AppState
  | .registerAgent id now name caps =>
    if s.registry.get id = none then
      some { s with registry := (s.registry.register id now name caps).2 }
    else none
  | .heartbeat id now => some { s with registry := (s.registry.heartbeat id now).2 }
  | .deregisterAgent id => some { s with registry := (s.registry.deregister id).2 }
  | .flip ids => some { s with registry := Watchdog.flip s.registry ids }
  | .createConversation id now name participants =>
    if s.chat.getConversation id = none then
      some { s with chat := (s.chat.createConversation id now name participants).2 }
    else none
  | .sendMessage id now conversationId sender content =>
    some { s with chat := (s.chat.sendMessage id now conversationId sender content).2 }
  | .registerTool id args =>
    if (s.tools.get id).isNone then some { s with tools := (s.tools.register id args).2 } else none
  | .deregisterTool id =>
    if (s.tools.get id).any fun info => isBuiltin info.name then none
    else some { s with tools := (s.tools.deregister id).2 }
  | .createTask mint args =>
    if (s.tasks.get mint.id).isNone then
      some { s with tasks := (s.tasks.createTaskWithDeadline mint args).2 }
    else none
  | .updateStatus id new message now =>
    some { s with tasks := (s.tasks.updateStatus id new message now).2 }
  | .cancel id message now => some { s with tasks := (s.tasks.cancel id message now).2 }
  | .addArtifact id artifact => some { s with tasks := (s.tasks.addArtifact id artifact).2 }
  | .failTasks text todo draw =>
    some { s with tasks := Watchdog.failEach s.tasks text todo draw }
  | .createPush parse id taskId url token authentication =>
    some { s with pushNotifications :=
      (s.pushNotifications.create parse id taskId url token authentication).2 }
  | .deletePush taskId id =>
    some { s with pushNotifications := (s.pushNotifications.delete taskId id).2 }
  | .restart ids => some (s.restart ids)
  | .reorderAgents ids => some { s with registry := s.registry.reorder ids }
  | .reorderConversations ids => some { s with chat := s.chat.reorder ids }
  | .reorderTools ids => some { s with tools := s.tools.reorder ids }
  | .reorderTasks ids => some { s with tasks := s.tasks.reorder ids }
  | .reorderPush ids => some { s with pushNotifications := s.pushNotifications.reorder ids }

/-- The states of a daemon first started without a snapshot. -/
def Reachable (s : AppState) : Prop :=
  ∃ ids ops, FreshIds ids .new ∧ Transition.exec apply (start none ids) ops = some s

/-! ## The invariant of reachable states -/

/-- The stores are valid and every built-in tool is registered. -/
structure Running (s : AppState) : Prop where
  valid : Valid s
  builtins : BuiltinsTaken s.tools

theorem start_running {ids : String → ToolId} (fresh : FreshIds ids .new) :
    Running (start none ids) := by
  obtain ⟨hv, hb⟩ := registerCodeTools_valid new_valid fresh
  exact ⟨hv, hb⟩

/-- The names the restored registry takes are those of the state restored. -/
theorem restore_builtinsTaken {s : AppState} (h : Running s) (fresh : AppState) :
    BuiltinsTaken (fresh.restoreFromSnapshot s.toSnapshot).tools := by
  obtain ⟨hv, hl⟩ := restore_toSnapshot h.valid fresh
  intro tool ht
  rw [NameIndex.find_congr hv.tools.index h.valid.tools.index hl.tool]
  exact h.builtins tool ht

/-- The built-in tools come back with the snapshot, so that their registration at
start changes nothing. -/
theorem restart_eq {s : AppState} (h : Running s) (ids : String → ToolId) :
    s.restart ids = new.restoreFromSnapshot s.toSnapshot :=
  registerCodeTools_taken (restore_builtinsTaken h new) ids

theorem restart_running {s : AppState} (h : Running s) (ids : String → ToolId) :
    Running (s.restart ids) ∧ SameLookups (s.restart ids) s := by
  obtain ⟨hv, hl⟩ := restore_toSnapshot h.valid new
  rw [restart_eq h]
  exact ⟨⟨hv, restore_builtinsTaken h new⟩, hl⟩

theorem deregister_builtinsTaken {tools : ToolRegistry} (h : BuiltinsTaken tools) {id : ToolId}
    (hid : ¬ (tools.get id).any fun info => isBuiltin info.name) :
    BuiltinsTaken (tools.deregister id).2 := by
  unfold ToolRegistry.deregister
  cases hg : tools.tools.get id with
  | none => exact h
  | some info =>
    intro tool ht
    have hne : tool.1 ≠ info.name := by
      rintro e
      apply hid
      rw [show tools.get id = some info from hg]
      exact List.any_eq_true.mpr ⟨tool, ht, by simpa using e⟩
    simp only [HashTable.find_erase, hne, if_false]
    exact h tool ht

/-- Every operation keeps the invariant. -/
theorem apply_running {s t : AppState} {op : Op} (h : Running s) (hs : s.apply op = some t) :
    Running t := by
  obtain ⟨hv, hb⟩ := h
  cases op with
  | registerAgent id now name caps =>
    simp only [apply, Option.ite_none_right_eq_some, Option.some.injEq] at hs
    obtain ⟨fresh, rfl⟩ := hs
    exact ⟨{ hv with registry := AgentRegistry.register_valid hv.registry fresh _ _ _ }, hb⟩
  | heartbeat id now =>
    cases hs
    exact ⟨{ hv with registry := AgentRegistry.heartbeat_valid hv.registry _ _ }, hb⟩
  | deregisterAgent id =>
    cases hs
    exact ⟨{ hv with registry := AgentRegistry.deregister_valid hv.registry _ }, hb⟩
  | flip ids =>
    cases hs
    exact ⟨{ hv with registry := Watchdog.flip_valid hv.registry _ }, hb⟩
  | createConversation id now name participants =>
    simp only [apply, Option.ite_none_right_eq_some, Option.some.injEq] at hs
    obtain ⟨_, rfl⟩ := hs
    exact ⟨{ hv with chat := ChatManager.createConversation_valid hv.chat _ _ _ _ }, hb⟩
  | sendMessage id now conversationId sender content =>
    cases hs
    exact ⟨{ hv with chat := ChatManager.sendMessage_valid hv.chat _ _ _ _ _ }, hb⟩
  | registerTool id args =>
    simp only [apply, Option.ite_none_right_eq_some, Option.some.injEq] at hs
    obtain ⟨fresh, rfl⟩ := hs
    have hfresh := Option.isNone_iff_eq_none.mp fresh
    exact ⟨{ hv with tools := ToolRegistry.register_valid hv.tools hfresh args },
      fun tool ht => ToolRegistry.taken_register (hb tool ht) id args⟩
  | deregisterTool id =>
    simp only [apply, Option.ite_none_left_eq_some, Option.some.injEq] at hs
    obtain ⟨hid, rfl⟩ := hs
    exact ⟨{ hv with tools := ToolRegistry.deregister_valid hv.tools id },
      deregister_builtinsTaken hb hid⟩
  | createTask mint args =>
    simp only [apply, Option.ite_none_right_eq_some, Option.some.injEq] at hs
    obtain ⟨fresh, rfl⟩ := hs
    have hfresh := Option.isNone_iff_eq_none.mp fresh
    exact ⟨{ hv with tasks := TaskManager.createTask_indexed hv.tasks hfresh args }, hb⟩
  | updateStatus id new message now =>
    cases hs
    exact ⟨{ hv with tasks := TaskManager.updateStatus_indexed hv.tasks _ _ _ _ }, hb⟩
  | cancel id message now =>
    cases hs
    exact ⟨{ hv with tasks := TaskManager.updateStatus_indexed hv.tasks _ _ _ _ }, hb⟩
  | addArtifact id artifact =>
    cases hs
    exact ⟨{ hv with tasks := TaskManager.addArtifact_indexed hv.tasks _ _ }, hb⟩
  | failTasks text todo draw =>
    cases hs
    exact ⟨{ hv with tasks := TaskManager.failEach_indexed hv.tasks _ _ _ }, hb⟩
  | createPush parse id taskId url token authentication =>
    cases hs
    exact ⟨{ hv with pushNotifications :=
      PushNotificationStore.create_valid hv.pushNotifications _ _ _ _ _ _ }, hb⟩
  | deletePush taskId id =>
    cases hs
    exact ⟨{ hv with pushNotifications :=
      PushNotificationStore.delete_valid hv.pushNotifications _ _ }, hb⟩
  | restart ids =>
    cases hs
    exact (restart_running ⟨hv, hb⟩ ids).1
  | reorderAgents ids =>
    cases hs
    exact ⟨{ hv with registry := AgentRegistry.reorder_valid hv.registry _ }, hb⟩
  | reorderConversations ids =>
    cases hs
    exact ⟨{ hv with chat := ChatManager.reorder_valid hv.chat _ }, hb⟩
  | reorderTools ids =>
    cases hs
    exact ⟨{ hv with tools := ToolRegistry.reorder_valid hv.tools _ }, hb⟩
  | reorderTasks ids =>
    cases hs
    exact ⟨{ hv with tasks := TaskManager.reorder_indexed hv.tasks _ }, hb⟩
  | reorderPush ids =>
    cases hs
    exact ⟨{ hv with pushNotifications :=
      PushNotificationStore.reorder_valid hv.pushNotifications _ }, hb⟩

theorem Reachable.running {s : AppState} (h : Reachable s) : Running s := by
  obtain ⟨ids, ops, fresh, hrun⟩ := h
  exact Transition.invariant (P := Running) (fun _ _ _ => apply_running) (start_running fresh) hrun

/-! ## Queries -/

/-- The two states answer every query alike; answers that are lists in an
unspecified order agree up to the order. -/
structure SameAnswers (a b : AppState) : Prop where
  agent : ∀ id, a.registry.get id = b.registry.get id
  agentByName : ∀ name, a.registry.findByName name = b.registry.findByName name
  agents : a.registry.list.Perm b.registry.list
  tool : ∀ id, a.tools.get id = b.tools.get id
  toolByName : ∀ name, a.tools.findByName name = b.tools.findByName name
  tools : a.tools.list.Perm b.tools.list
  conversation : ∀ id, a.chat.getConversation id = b.chat.getConversation id
  messages : ∀ id, a.chat.getMessages id = b.chat.getMessages id
  conversations : a.chat.listConversations.Perm b.chat.listConversations
  conversationsForAgent : ∀ id,
    (a.chat.conversationsForAgent id).Perm (b.chat.conversationsForAgent id)
  task : ∀ id, a.tasks.get id = b.tasks.get id
  tasks : a.tasks.list.Perm b.tasks.list
  listFiltered : ∀ filter, (a.tasks.listFiltered filter).Perm (b.tasks.listFiltered filter)
  tasksForAgent : ∀ id, (a.tasks.tasksForAgent id).Perm (b.tasks.tasksForAgent id)
  push : ∀ task id, a.pushNotifications.get task id = b.pushNotifications.get task id
  pushList : ∀ task, a.pushNotifications.list task = b.pushNotifications.list task

/-- Valid states with the same lookups answer alike. -/
theorem SameLookups.answers {a b : AppState} (h : SameLookups a b) (ha : Valid a) (hb : Valid b) :
    SameAnswers a b where
  agent := h.agent
  agentByName name := by
    have hg : a.registry.agents.get = b.registry.agents.get := funext h.agent
    rw [AgentRegistry.findByName, AgentRegistry.findByName, hg,
      NameIndex.find_congr ha.registry.index hb.registry.index h.agent]
  agents := KeyedMap.values_perm h.agent
  tool := h.tool
  toolByName name := by
    have hg : a.tools.tools.get = b.tools.tools.get := funext h.tool
    rw [ToolRegistry.findByName, ToolRegistry.findByName, hg,
      NameIndex.find_congr ha.tools.index hb.tools.index h.tool]
  tools := KeyedMap.values_perm h.tool
  conversation := h.conversation
  messages id := by rw [ChatManager.getMessages, ChatManager.getMessages, h.history]
  conversations := KeyedMap.values_perm h.conversation
  conversationsForAgent id := (KeyedMap.values_perm h.conversation).filter _
  task := h.task
  tasks := KeyedMap.values_perm h.task
  listFiltered := TaskManager.listFiltered_congr ha.tasks hb.tasks h.task
  tasksForAgent := TaskManager.tasksForAgent_congr h.task
  push task id := by
    rw [PushNotificationStore.get_eq_find, PushNotificationStore.get_eq_find, h.push]
  pushList := h.push

/-- The state after a number of restarts, one for each draw of tool identifiers. -/
def restarts (s : AppState) (draws : List (String → ToolId)) : AppState := draws.foldl restart s

theorem restarts_running {s : AppState} (h : Running s) (draws : List (String → ToolId)) :
    Running (s.restarts draws) ∧ SameLookups (s.restarts draws) s := by
  induction draws generalizing s with
  | nil => exact ⟨h, .refl s⟩
  | cons ids draws ih =>
    obtain ⟨h1, l1⟩ := restart_running h ids
    obtain ⟨h2, l2⟩ := ih h1
    exact ⟨h2, l2.trans l1⟩

/-- A registry whose names are distinct has at most one entry under a name. -/
theorem entries_le_one {tools : ToolRegistry} (h : tools.Valid) (name : String) :
    (tools.list.filter fun info => info.name = name).length ≤ 1 := by
  have hn := Named.names_nodup h
  have hc := List.nodup_iff_count_le_one.mp hn name
  rw [List.count_eq_countP, List.countP_map, List.countP_eq_length_filter] at hc
  exact hc

/-- Any number of restarts leaves every answer as it was, and no more than one
entry for each built-in tool. -/
theorem restarts_same_answers {s : AppState} (h : Reachable s) (draws : List (String → ToolId)) :
    SameAnswers (s.restarts draws) s ∧
      ∀ tool ∈ builtinTools,
        ((s.restarts draws).tools.list.filter fun info => info.name = tool.1).length ≤ 1 := by
  obtain ⟨hr, hl⟩ := restarts_running h.running draws
  exact ⟨hl.answers hr.valid h.running.valid, fun tool _ => entries_le_one hr.valid.tools tool.1⟩

/-- The identifiers a first start might draw. -/
def sampleIds (name : String) : ToolId :=
  ⟨.ofOctet (if name = "code.scan_repo" then 1 else if name = "code.read_file" then 2 else 3)⟩

theorem sampleIds_fresh : FreshIds sampleIds .new := ⟨fun _ _ => rfl, by decide⟩

/-- An agent talks, offers a tool and works on a task that a webhook follows. -/
def sampleOps : List Op :=
  [.registerAgent ⟨.ofOctet 4⟩ 0 "scout" none,
    .createConversation ⟨.ofOctet 5⟩ 1 (some "plans") [⟨.ofOctet 4⟩],
    .sendMessage ⟨.ofOctet 6⟩ 2 ⟨.ofOctet 5⟩ ⟨.ofOctet 4⟩ "hello",
    .registerTool ⟨.ofOctet 7⟩ ⟨"scout.look", "Looks.", .null, .null, .agent ⟨.ofOctet 4⟩⟩,
    .createTask ⟨⟨.ofOctet 8⟩, ⟨.ofOctet 9⟩, 3⟩
      ⟨⟨⟨.ofOctet 10⟩, .user, [.text "look"], none⟩, none, some ⟨.ofOctet 4⟩, none, none, none⟩,
    .updateStatus ⟨.ofOctet 8⟩ .working none 4,
    .addArtifact ⟨.ofOctet 8⟩ ⟨⟨.ofOctet 11⟩, none, none, [.text "nothing yet"], none⟩,
    .createPush (fun _ => .ok "https") ⟨.ofOctet 12⟩ ⟨.ofOctet 8⟩ "https://localhost" "" none]

def sampleFilled : AppState :=
  (Transition.exec apply (start none sampleIds) sampleOps).getD (start none sampleIds)

theorem sampleFilled_run :
    Transition.exec apply (start none sampleIds) sampleOps = some sampleFilled := rfl

/-- Every store has an entry, and the daemon is restarted twice. -/
theorem restarts_same_answers_filled :
    (sampleFilled.registry.list.length = 1 ∧ sampleFilled.tools.list.length = 4 ∧
      (sampleFilled.chat.getMessages ⟨.ofOctet 5⟩).toOption.map List.length = some 1 ∧
      (sampleFilled.tasks.list.map fun t => (t.status.state, t.artifacts.length)) =
        [(TaskState.working, 1)] ∧
      (sampleFilled.pushNotifications.list ⟨.ofOctet 8⟩).length = 1) ∧
    SameAnswers (sampleFilled.restarts [sampleIds, sampleIds]) sampleFilled ∧
      ∀ tool ∈ builtinTools, ((sampleFilled.restarts [sampleIds, sampleIds]).tools.list.filter
        fun info => info.name = tool.1).length ≤ 1 :=
  ⟨⟨rfl, rfl, rfl, rfl, rfl⟩, restarts_same_answers
    ⟨sampleIds, sampleOps, sampleIds_fresh, sampleFilled_run⟩ [sampleIds, sampleIds]⟩

end AppState

end Trumpet
