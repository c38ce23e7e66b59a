import Trumpet.Core.ChatLog
import Trumpet.Core.CodeSandbox
import Trumpet.Core.IdText
import Trumpet.Core.Lifecycle
import Trumpet.Server.Routes

/-! What the daemon has accepted it keeps, whatever it does afterwards and however often it
is restarted. -/

namespace Trumpet

namespace TaskManager

theorem Evolves.refl (m : TaskManager) : Evolves m m := fun _ t h => ⟨t, h, .refl t⟩

theorem Evolves.of_get {m m' : TaskManager} (h : ∀ id, m'.get id = m.get id) : Evolves m m' :=
  fun id t hg => ⟨t, (h id).trans hg, .refl t⟩

/-- A list of tasks to fail may name a task twice. -/
theorem failEach_evolves (m : TaskManager) (text : String) (todo : List (TaskId × TaskState))
    (draw : Watchdog.Draws) : Evolves m (Watchdog.failEach m text todo draw) := by
  induction todo generalizing m with
  | nil => exact .refl m
  | cons e todo ih => exact (updateStatus_steps m _ _ _ _).evolves.trans (ih _)

end TaskManager

namespace ChatLog.Appends

theorem of_find {a b : ChatManager} (h : ∀ id, b.messages.find id = a.messages.find id) :
    Appends a b :=
  fun id msgs hm => ⟨[], by rw [h, hm, List.append_nil]⟩

theorem trans {a b c : ChatManager} (h : Appends a b) (h' : Appends b c) : Appends a c := by
  intro id msgs hm
  obtain ⟨more, hb⟩ := h id msgs hm
  obtain ⟨more', hc⟩ := h' id _ hb
  exact ⟨more ++ more', by rw [hc, List.append_assoc]⟩

end ChatLog.Appends

namespace ChatManager

open ChatLog

theorem createConversation_appends {c : ChatManager} (h : Valid c) {id : ConversationId}
    (fresh : c.getConversation id = none) (now : DateTime) (name : Option String)
    (participants : List AgentId) :
    Appends c (c.createConversation id now name participants).2 := by
  rcases createConversation_cases c id now name participants with ⟨e, he⟩ | ⟨-, hc⟩
  · rw [he]
    exact .of_find fun _ => rfl
  · rw [hc]
    intro k msgs hk
    have hne : k ≠ id := by
      rintro rfl
      have hsome := h k
      rw [hk, fresh] at hsome
      cases hsome
    exact ⟨[], by rw [HashTable.find_put, if_neg hne, hk, List.append_nil]⟩

theorem sendMessage_appends (c : ChatManager) (id : MessageId) (now : DateTime)
    (conversationId : ConversationId) (sender : AgentId) (content : String) :
    Appends c (c.sendMessage id now conversationId sender content).2 := by
  rcases sendMessage_cases c id now conversationId sender content with ⟨e, he⟩ | ⟨_, -, -, hc⟩
  · rw [he]
    exact .of_find fun _ => rfl
  · rw [hc]
    intro k msgs hk
    rw [HashTable.find_alter]
    by_cases hkc : k = conversationId
    · subst hkc
      exact ⟨[_], by rw [if_pos rfl, hk]; rfl⟩
    · exact ⟨[], by rw [if_neg hkc, hk, List.append_nil]⟩

end ChatManager

namespace AppState

/-- What `s` holds `t` still holds, at a later time. -/
structure Keeps (s t : AppState) : Prop where
  tasks : TaskManager.Evolves s.tasks t.tasks
  chat : ChatLog.Appends s.chat t.chat

theorem Keeps.of_eq {s t : AppState} (tasks : t.tasks = s.tasks) (chat : t.chat = s.chat) :
    Keeps s t :=
  ⟨.of_get fun _ => by rw [tasks], .of_find fun _ => by rw [chat]⟩

theorem Keeps.trans {s t u : AppState} (h : Keeps s t) (h' : Keeps t u) : Keeps s u :=
  ⟨h.tasks.trans h'.tasks, h.chat.trans h'.chat⟩

/-- Every operation keeps what there is, a restart included. -/
theorem apply_keeps {s t : AppState} {op : Op} (h : Running s) (hs : s.apply op = some t) :
    Keeps s t := by
  have chat_only : ∀ chat, ChatLog.Appends s.chat chat → Keeps s { s with chat } :=
    fun _ hc => ⟨.refl _, hc⟩
  have tasks_only : ∀ tasks, TaskManager.Evolves s.tasks tasks → Keeps s { s with tasks } :=
    fun _ ht => ⟨ht, .of_find fun _ => rfl⟩
  cases op with
  | registerAgent id now name caps =>
    simp only [apply, Option.ite_none_right_eq_some, Option.some.injEq] at hs
    obtain ⟨-, rfl⟩ := hs
    exact .of_eq rfl rfl
  | registerTool id args =>
    simp only [apply, Option.ite_none_right_eq_some, Option.some.injEq] at hs
    obtain ⟨-, rfl⟩ := hs
    exact .of_eq rfl rfl
  | deregisterTool id =>
    simp only [apply, Option.ite_none_left_eq_some, Option.some.injEq] at hs
    obtain ⟨-, rfl⟩ := hs
    exact .of_eq rfl rfl
  | createConversation id now name participants =>
    simp only [apply, Option.ite_none_right_eq_some, Option.some.injEq] at hs
    obtain ⟨fresh, rfl⟩ := hs
    exact chat_only _ (ChatManager.createConversation_appends h.valid.chat fresh _ _ _)
  | sendMessage id now conversationId sender content =>
    cases hs
    exact chat_only _ (ChatManager.sendMessage_appends _ _ _ _ _ _)
  | createTask mint args =>
    simp only [apply, Option.ite_none_right_eq_some, Option.some.injEq] at hs
    obtain ⟨fresh, rfl⟩ := hs
    exact tasks_only _
      (TaskManager.create_steps (Option.isNone_iff_eq_none.mp fresh) args).evolves
  | updateStatus id new message now | cancel id message now =>
    cases hs
    exact tasks_only _ (TaskManager.updateStatus_steps _ _ _ _ _).evolves
  | addArtifact id artifact =>
    cases hs
    exact tasks_only _ (TaskManager.addArtifact_steps _ _ _).evolves
  | failTasks text todo draw =>
    cases hs
    exact tasks_only _ (TaskManager.failEach_evolves _ _ _ _)
  | restart ids =>
    cases hs
    obtain ⟨-, hl⟩ := restart_running h ids
    exact ⟨.of_get hl.task, .of_find hl.history⟩
  | reorderConversations ids =>
    cases hs
    exact chat_only _ (.of_find fun _ => rfl)
  | reorderTasks ids =>
    cases hs
    exact tasks_only _ (.of_get fun id => TaskManager.get_reorder _ _ _)
  | heartbeat | deregisterAgent | flip | createPush | deletePush | reorderAgents | reorderTools
  | reorderPush =>
    cases hs
    exact .of_eq rfl rfl

theorem exec_keeps {s t : AppState} {ops : List Op} (h : Running s)
    (hs : Transition.exec apply s ops = some t) : Running t ∧ Keeps s t :=
  Transition.invariant (P := fun t => Running t ∧ Keeps s t)
    (fun _ _ _ ⟨hr, hk⟩ hu => ⟨apply_running hr hu, hk.trans (apply_keeps hr hu)⟩)
    ⟨h, .of_eq rfl rfl⟩ hs

/-- A conversation stays as it was created. -/
theorem apply_conversation {s t : AppState} {op : Op} (h : Running s) (hs : s.apply op = some t)
    {id : ConversationId} {conv : Conversation} (hc : s.chat.getConversation id = some conv) :
    t.chat.getConversation id = some conv := by
  cases op with
  | createConversation id' now name participants =>
    simp only [apply, Option.ite_none_right_eq_some, Option.some.injEq] at hs
    obtain ⟨fresh, rfl⟩ := hs
    rcases ChatManager.createConversation_cases s.chat id' now name participants with
      ⟨e, he⟩ | ⟨-, he⟩
    · rw [he]
      exact hc
    · have hne : id ≠ id' := by
        rintro rfl
        rw [fresh] at hc
        cases hc
      rw [he, ChatManager.getConversation, KeyedMap.get_insert, if_neg hne]
      exact hc
  | sendMessage id' now conversationId sender content =>
    cases hs
    rcases ChatManager.sendMessage_cases s.chat id' now conversationId sender content with
      ⟨e, he⟩ | ⟨_, -, -, he⟩
    · rw [he]
      exact hc
    · rw [he]
      exact hc
  | restart ids =>
    cases hs
    obtain ⟨-, hl⟩ := restart_running h ids
    exact (hl.conversation id).trans hc
  | reorderConversations ids =>
    cases hs
    exact (KeyedMap.get_reorder ..).trans hc
  | registerAgent | registerTool | createTask =>
    simp only [apply, Option.ite_none_right_eq_some, Option.some.injEq] at hs
    obtain ⟨-, rfl⟩ := hs
    exact hc
  | deregisterTool =>
    simp only [apply, Option.ite_none_left_eq_some, Option.some.injEq] at hs
    obtain ⟨-, rfl⟩ := hs
    exact hc
  | heartbeat | deregisterAgent | flip | updateStatus | cancel | addArtifact | failTasks
  | createPush | deletePush | reorderAgents | reorderTools | reorderTasks | reorderPush =>
    cases hs
    exact hc

theorem exec_conversation {s t : AppState} {ops : List Op} (h : Running s)
    (hs : Transition.exec apply s ops = some t) {id : ConversationId} {conv : Conversation}
    (hc : s.chat.getConversation id = some conv) : t.chat.getConversation id = some conv :=
  (Transition.invariant (P := fun t => Running t ∧ t.chat.getConversation id = some conv)
    (fun _ _ _ ⟨hr, hg⟩ hu => ⟨apply_running hr hu, apply_conversation hr hu hg⟩) ⟨h, hc⟩ hs).2

end AppState

/-! ## What a client has been told -/

namespace Nexus

section
variable {env : Env} {d : Draws} {s t : AppState}

theorem call_running (hf : Fresh d s) (hr : AppState.Running s) {c : Call} {o : Outcome}
    (h : call env d s c = some o) : AppState.Running o.2 := by
  have hcomes := call_comes hf h
  obtain ⟨res, s'⟩ := o
  cases hcomes with
  | refused | read => exact hr
  | wrote _ _ hop => exact AppState.apply_running hr hop

/-- An answer that shows a task. -/
inductive Shows : Answer → Task → Prop
  | task (task : Task) : Shows (.task task) task
  | created (task : Task) : Shows (.invoked (.taskCreated task)) task
  | listed {tasks : List Task} {task : Task} (h : task ∈ tasks) : Shows (.tasks tasks) task

theorem submit_stored {args : TaskFacade.Submission} {task : Task}
    (h : (TaskFacade.submitTaskWithDeadline s.registry s.tasks args d.temp d.mint).1 = .ok task) :
    (TaskFacade.submitTaskWithDeadline s.registry s.tasks args d.temp d.mint).2.get task.id =
      some task := by
  rcases TaskFacade.submit_stores s.registry s.tasks args d.temp d.mint with
    ⟨e, he⟩ | ⟨task', hok, hstored, -⟩
  · rw [h] at he
    cases he
  · rw [h] at hok
    cases hok
    exact hstored

theorem cancel_stored {id : TaskId} {task : Task}
    (h : (s.tasks.cancel id none d.now).1 = .ok task) :
    (s.tasks.cancel id none d.now).2.get task.id = some task := by
  rcases TaskManager.updateStatus_cases s.tasks id .canceled none d.now with
    ⟨e, he⟩ | ⟨old, -, -, hr⟩
  · rw [TaskManager.cancel, he] at h
    cases h
  · rw [TaskManager.cancel, hr] at h ⊢
    cases h
    simp only [TaskManager.get, TaskManager.publish_tasks, KeyedMap.get_insert, if_true]

theorem created_stored {name : String} {input : Json} {task : Task}
    {r : Except Error ToolResult × ToolInvoker}
    (h : (invoker env s).invoke env.host env.serialize env.fuel ⟨d.message, d.temp, d.mint⟩ name
      input = some r) (hok : r.1 = .ok (.taskCreated task)) :
    r.2.tasks.get task.id = some task := by
  rcases invoke_cases h with ⟨e, rfl⟩ | ⟨output, rfl⟩ | ⟨args, -, rfl⟩
  · cases hok
  · cases hok
  · simp only at hok ⊢
    cases hres : (TaskFacade.submitTaskWithDeadline s.registry s.tasks args d.temp d.mint).1 with
    | error e =>
      rw [hres] at hok
      cases hok
    | ok found =>
      rw [hres] at hok
      cases hok
      exact submit_stored hres

/-- A task that an answer shows is the one that is stored. -/
theorem shown_stored (hi : s.tasks.Indexed) {c : Call} {a : Answer} {task : Task}
    (h : call env d s c = some (.ok a, t)) (hshown : Shows a task) :
    t.tasks.get task.id = some task := by
  cases c with
  | submitTask message contextId assignee deadlineMs deadlineAt =>
    obtain ⟨deadline, -, hr⟩ := Option.map_eq_some_iff.mp h
    obtain ⟨hres, rfl⟩ := Prod.mk.inj hr
    obtain ⟨found, hfound, rfl⟩ := Except.of_map_ok hres
    cases hshown
    exact submit_stored hfound
  | getTask id =>
    simp only [call] at h
    cases hg : s.tasks.get id with
    | none =>
      rw [hg] at h
      cases h
    | some found =>
      rw [hg] at h
      cases h
      cases hshown
      rw [TaskManager.id_of_get hg]
      exact hg
  | listTasks filter =>
    cases h
    cases hshown with
    | listed hmem => exact ((TaskManager.mem_listFiltered hi).mp hmem).1
  | cancelTask id =>
    obtain ⟨hres, rfl⟩ := Prod.mk.inj (Option.some.inj h)
    obtain ⟨found, hfound, rfl⟩ := Except.of_map_ok hres
    cases hshown
    exact cancel_stored hfound
  | invokeTool name input =>
    obtain ⟨r, hr, he⟩ := Option.map_eq_some_iff.mp h
    obtain ⟨hres, rfl⟩ := Prod.mk.inj he
    obtain ⟨result, hresult, rfl⟩ := Except.of_map_ok hres
    cases hshown
    exact created_stored hr hresult
  | registerAgent | heartbeatAgent | deregisterAgent | createConversation | sendMessage =>
    obtain ⟨hres, -⟩ := Prod.mk.inj (Option.some.inj h)
    obtain ⟨_, -, rfl⟩ := Except.of_map_ok hres
    cases hshown
  | getMessages id =>
    obtain ⟨hres, -⟩ := Prod.mk.inj (Option.some.inj h)
    obtain ⟨_, -, rfl⟩ := Except.of_map_ok hres
    cases hshown
  | getConversation | getTool =>
    simp only [call] at h
    split at h <;> cases h
    cases hshown
  | listAgents | listConversations | listTools =>
    cases h
    cases hshown

/-- Whatever answer has shown a client a task, the task is found under its id from then
on, over every run of the daemon and every restart: at a later time, and unchanged if it
was final. -/
theorem shown_task_kept {txt : TextForms} {parse : UuidParser} (hp : ReadsBack parse)
    (hf : Fresh d s) (hr : AppState.Running s) {c : Call} {a : Answer} {task : Task}
    {s' : AppState} (h : call env d s c = some (.ok a, s')) (hshown : Shows a task)
    {ops : List AppState.Op} (hrun : Transition.exec AppState.apply s' ops = some t) (env' : Env)
    (d' : Draws) :
    ∃ u, Grows task u ∧ Routes.serve txt parse env' d' t (.getTaskById task.id.toString) =
      some (⟨200, u.toJson txt⟩, t) := by
  have hstored := shown_stored hr.valid.tasks h hshown
  obtain ⟨-, hkeeps⟩ := AppState.exec_keeps (call_running hf hr h) hrun
  obtain ⟨u, hu, hgrows⟩ := hkeeps.tasks task.id task hstored
  refine ⟨u, hgrows, ?_⟩
  refine (Routes.serve_requestOf hp (.getTask task.id)).trans ?_
  simp only [call, hu]
  rfl

/-- A nexus without code tools. -/
def sampleEnv : Env := ⟨CodeTools.sampleHost, none, 0, fun json => .ok json.compact⟩

def sampleDraws (task : UInt8) : Draws :=
  ⟨⟨.ofOctet 1⟩, ⟨.ofOctet 2⟩, ⟨.ofOctet 3⟩, ⟨⟨.ofOctet 4⟩, ⟨.ofOctet 5⟩, 0⟩,
    ⟨⟨.ofOctet task⟩, ⟨.ofOctet 6⟩, 0⟩, 0⟩

/-- The task of a first submission, shown to its client, canceled and restored. -/
theorem canceled_task_kept :
    let task := TaskManager.created (sampleDraws 7).mint
      ⟨userMessage ⟨.ofOctet 3⟩ "hello", none, none, none, none, none⟩
    ∃ t u, Grows task u ∧
      Routes.serve .plain Uuid.ofText sampleEnv (sampleDraws 8) t
        (.getTaskById task.id.toString) = some (⟨200, u.toJson .plain⟩, t) :=
  have submitted : call sampleEnv (sampleDraws 7) (.start none AppState.sampleIds)
      (.submitTask "hello" none none none none) = some (.ok (.task _), _) := rfl
  ⟨_, shown_task_kept Uuid.ofText_toString ⟨rfl, rfl, rfl⟩
    (AppState.start_running AppState.sampleIds_fresh) submitted (.task _)
    (show Transition.exec AppState.apply _ [.cancel (sampleDraws 7).mint.id none 5,
      .restart AppState.sampleIds] = some _ from rfl) sampleEnv (sampleDraws 8)⟩

theorem getMessages_of_find {chat : ChatManager} {id : ConversationId} {msgs : List ChatMessage}
    (h : chat.messages.find id = some msgs) : chat.getMessages id = .ok msgs := by
  rw [ChatManager.getMessages, h]

theorem find_of_getMessages {chat : ChatManager} {id : ConversationId} {msgs : List ChatMessage}
    (h : chat.getMessages id = .ok msgs) : chat.messages.find id = some msgs := by
  unfold ChatManager.getMessages at h
  cases hf : chat.messages.find id with
  | none =>
    rw [hf] at h
    cases h
  | some found =>
    rw [hf] at h
    cases h
    rfl

/-- A message that was sent keeps its place in the history of its conversation, over
every run of the daemon and every restart. -/
theorem sent_message_kept {txt : TextForms} {parse : UuidParser} (hp : ReadsBack parse)
    (hf : Fresh d s) (hr : AppState.Running s) {id : ConversationId} {sender : AgentId}
    {content : String} {msg : ChatMessage} {s' : AppState}
    (h : call env d s (.sendMessage id sender content) = some (.ok (.message msg), s')) :
    ∃ before, s.chat.getMessages id = .ok before ∧
      ∀ ops t, Transition.exec AppState.apply s' ops = some t → ∀ env' d', ∃ after,
        Routes.serve txt parse env' d' t (.getMessages id.toString) =
          some (⟨200, .array ((before ++ msg :: after).map (ChatMessage.toJson txt))⟩, t) := by
  have hrunning := call_running hf hr h
  obtain ⟨hres, rfl⟩ := Prod.mk.inj (Option.some.inj h)
  obtain ⟨found, hfound, hx⟩ := Except.of_map_ok hres
  cases hx
  rcases ChatManager.sendMessage_cases s.chat d.message d.now id sender content with
    ⟨e, he⟩ | ⟨conv, hconv, -, hsent⟩
  · rw [he] at hfound
    cases hfound
  · rw [hsent] at hfound hrunning
    cases hfound
    obtain ⟨before, hbefore⟩ := Option.isSome_iff_exists.mp
      ((hr.valid.chat id).trans (Option.isSome_iff_exists.mpr ⟨conv, hconv⟩))
    refine ⟨before, getMessages_of_find hbefore, fun ops t hrun env' d' => ?_⟩
    rw [hsent] at hrun
    obtain ⟨-, hkeeps⟩ := AppState.exec_keeps hrunning hrun
    obtain ⟨after, hafter⟩ := hkeeps.chat id _
      ((HashTable.find_alter ..).trans (by rw [if_pos rfl, hbefore]))
    refine ⟨after, (Routes.serve_requestOf hp (.getMessages id)).trans ?_⟩
    simp only [call, getMessages_of_find hafter, Option.getD_some, List.append_assoc,
      List.singleton_append]
    rfl

/-- A conversation of one agent. -/
def sampleTalk : AppState :=
  { AppState.start none AppState.sampleIds with
    chat := (ChatManager.new.createConversation ⟨.ofOctet 2⟩ 0 none [⟨.ofOctet 9⟩]).2 }

theorem sampleTalk_running : AppState.Running sampleTalk :=
  have created : AppState.apply (.start none AppState.sampleIds)
      (.createConversation ⟨.ofOctet 2⟩ 0 none [⟨.ofOctet 9⟩]) = some sampleTalk := rfl
  AppState.apply_running (AppState.start_running AppState.sampleIds_fresh) created

theorem first_message_kept : ∃ (msg : ChatMessage) (before : List ChatMessage) (s : AppState),
    ∀ ops t, Transition.exec AppState.apply s ops = some t → ∀ env' d', ∃ after,
      Routes.serve .plain Uuid.ofText env' d' t
          (.getMessages (ConversationId.toString ⟨.ofOctet 2⟩)) =
        some (⟨200, .array ((before ++ msg :: after).map (ChatMessage.toJson .plain))⟩, t) := by
  have sent : call sampleEnv { sampleDraws 7 with conversation := ⟨.ofOctet 8⟩ } sampleTalk
      (.sendMessage ⟨.ofOctet 2⟩ ⟨.ofOctet 9⟩ "hello") = some (.ok (.message _), _) := rfl
  obtain ⟨before, -, kept⟩ :=
    sent_message_kept Uuid.ofText_toString ⟨rfl, rfl, rfl⟩ sampleTalk_running sent
  exact ⟨_, before, _, kept⟩

end

end Nexus

end Trumpet
