import Trumpet.Server.Kept

/-! What one store's entries say of another's: webhooks name tasks, messages name
conversations and their participants. -/

namespace Trumpet

namespace ChatManager

/-- Every message is filed under its conversation, and a participant has sent it. -/
def Linked (c : ChatManager) : Prop :=
  ∀ id msgs, c.messages.find id = some msgs → ∃ conv, c.getConversation id = some conv ∧
    ∀ m ∈ msgs, m.conversationId = id ∧ conv.participants.contains m.sender = true

theorem new_linked : Linked new := by
  intro id msgs h
  cases h

theorem Linked.of_lookups {c c' : ChatManager} (h : Linked c)
    (hc : ∀ id, c'.getConversation id = c.getConversation id)
    (hm : ∀ id, c'.messages.find id = c.messages.find id) : Linked c' := by
  intro id msgs hf
  rw [hc]
  exact h id msgs ((hm id).symm.trans hf)

theorem Linked.createConversation {c : ChatManager} (h : Linked c) {id : ConversationId}
    (fresh : c.getConversation id = none) (now : DateTime) (name : Option String)
    (participants : List AgentId) : Linked (c.createConversation id now name participants).2 := by
  rcases createConversation_cases c id now name participants with ⟨e, he⟩ | ⟨-, he⟩
  · rw [he]
    exact h
  · rw [he]
    intro k msgs hf
    simp only [HashTable.find_put] at hf
    simp only [getConversation, KeyedMap.get_insert]
    by_cases hk : k = id
    · subst hk
      simp only [if_true, Option.some.injEq] at hf ⊢
      subst hf
      exact ⟨_, rfl, fun m hm => absurd hm List.not_mem_nil⟩
    · simp only [hk, if_false] at hf ⊢
      exact h k msgs hf

theorem Linked.sendMessage {c : ChatManager} (h : Linked c) (id : MessageId) (now : DateTime)
    (conversationId : ConversationId) (sender : AgentId) (content : String) :
    Linked (c.sendMessage id now conversationId sender content).2 := by
  rcases sendMessage_cases c id now conversationId sender content with
    ⟨e, he⟩ | ⟨conv, hconv, hsender, he⟩
  · rw [he]
    exact h
  · rw [he]
    intro k msgs hf
    rw [HashTable.find_alter] at hf
    split at hf
    · rename_i hk
      subst hk
      obtain rfl := Option.some.inj hf
      refine ⟨conv, hconv, fun m hm => ?_⟩
      rcases List.mem_append.mp hm with hm | hm
      · cases hold : c.messages.find k with
        | none =>
          rw [hold] at hm
          cases hm
        | some old =>
          rw [hold] at hm
          obtain ⟨conv', hconv', hold⟩ := h k old hold
          obtain rfl := Option.some.inj (hconv'.symm.trans hconv)
          exact hold m hm
      · obtain rfl := List.mem_singleton.mp hm
        exact ⟨rfl, hsender⟩
    · exact h k msgs hf

end ChatManager

namespace AppState

/-- Every webhook is of a stored task, and every message of a conversation. -/
structure Linked (s : AppState) : Prop where
  webhooks : ∀ t, ∀ cfg ∈ s.pushNotifications.list t, ∃ task, s.tasks.get t = some task
  chat : s.chat.Linked

theorem start_linked (ids : String → ToolId) : Linked (start none ids) := by
  refine ⟨?_, ChatManager.new_linked⟩
  intro t cfg h
  cases h

theorem Linked.of_lookups {a b : AppState} (h : Linked a) (same : SameLookups b a) : Linked b := by
  refine ⟨fun t cfg hc => ?_, h.chat.of_lookups same.conversation same.history⟩
  rw [same.task]
  exact h.webhooks t cfg (same.push t ▸ hc)

/-- The task a creation of a webhook is for. -/
def Op.hooks : Op → Option TaskId
  | .createPush _ _ taskId .. => some taskId
  | _ => none

theorem evolved_stored {m m' : TaskManager} (h : TaskManager.Evolves m m') {id : TaskId}
    (stored : ∃ task, m.get id = some task) : ∃ task, m'.get id = some task := by
  obtain ⟨task, ht⟩ := stored
  obtain ⟨u, hu, -⟩ := h id task ht
  exact ⟨u, hu⟩

theorem hooks_none {op : Op} (h : op.hooks = none) {s : AppState} :
    ∀ id ∈ op.hooks, ∃ task, s.tasks.get id = some task := by
  intro id hid
  rw [h] at hid
  cases hid

/-- Every operation keeps the links, if a webhook is created for a stored task only. -/
theorem apply_linked {s t : AppState} {op : Op} (hr : Running s) (h : Linked s)
    (stored : ∀ id ∈ op.hooks, ∃ task, s.tasks.get id = some task) (hs : s.apply op = some t) :
    Linked t := by
  have hkeeps := apply_keeps hr hs
  have hooks (same : t.pushNotifications = s.pushNotifications) (id : TaskId)
      (cfg : PushNotificationConfig) (hc : cfg ∈ t.pushNotifications.list id) :
      ∃ task, t.tasks.get id = some task :=
    evolved_stored hkeeps.tasks (h.webhooks id cfg (same ▸ hc))
  cases op with
  | createConversation id now name participants =>
    simp only [apply, Option.ite_none_right_eq_some, Option.some.injEq] at hs
    obtain ⟨fresh, rfl⟩ := hs
    exact ⟨hooks rfl, h.chat.createConversation fresh _ _ _⟩
  | sendMessage id now conversationId sender content =>
    cases hs
    exact ⟨hooks rfl, h.chat.sendMessage _ _ _ _ _⟩
  | reorderConversations ids =>
    cases hs
    exact ⟨hooks rfl, h.chat.of_lookups (fun _ => KeyedMap.get_reorder ..) fun _ => rfl⟩
  | registerAgent | registerTool | createTask =>
    simp only [apply, Option.ite_none_right_eq_some, Option.some.injEq] at hs
    obtain ⟨-, rfl⟩ := hs
    exact ⟨hooks rfl, h.chat⟩
  | deregisterTool =>
    simp only [apply, Option.ite_none_left_eq_some, Option.some.injEq] at hs
    obtain ⟨-, rfl⟩ := hs
    exact ⟨hooks rfl, h.chat⟩
  | heartbeat | deregisterAgent | flip | updateStatus | cancel | addArtifact | failTasks
  | reorderAgents | reorderTools | reorderTasks =>
    cases hs
    exact ⟨hooks rfl, h.chat⟩
  | restart ids =>
    cases hs
    exact h.of_lookups (restart_running hr ids).2
  | reorderPush ids =>
    cases hs
    exact ⟨fun id cfg hc => h.webhooks id cfg (by simpa using hc), h.chat⟩
  | deletePush taskId id =>
    cases hs
    refine ⟨fun k cfg hc => ?_, h.chat⟩
    rw [PushNotificationStore.list_delete] at hc
    split at hc
    · exact h.webhooks k cfg (List.mem_of_mem_filter hc)
    · exact h.webhooks k cfg hc
  | createPush parse id taskId url token authentication =>
    cases hs
    refine ⟨fun k cfg hc => ?_, h.chat⟩
    rcases PushNotificationStore.create_cases parse s.pushNotifications id taskId url token
      authentication with ⟨e, he⟩ | he
    · rw [he] at hc
      exact h.webhooks k cfg hc
    · rw [he, PushNotificationStore.list_push] at hc
      rcases List.mem_append.mp hc with hc | hc
      · exact h.webhooks k cfg hc
      · split at hc
        · rename_i hk
          exact hk ▸ stored taskId rfl
        · cases hc

/-- No operation leaves an entry without configurations. -/
theorem apply_filled {s t : AppState} {op : Op} (h : s.pushNotifications.Filled)
    (hs : s.apply op = some t) : t.pushNotifications.Filled := by
  cases op with
  | createPush parse id taskId url token authentication =>
    cases hs
    exact PushNotificationStore.create_filled h _ _ _ _ _ _
  | deletePush taskId id =>
    cases hs
    exact PushNotificationStore.delete_filled h _ _
  | reorderPush ids =>
    cases hs
    exact PushNotificationStore.reorder_filled h ids
  | restart ids =>
    cases hs
    exact PushNotificationStore.restore_filled new.pushNotifications _
  | registerAgent | createConversation | registerTool | createTask =>
    simp only [apply, Option.ite_none_right_eq_some, Option.some.injEq] at hs
    obtain ⟨-, rfl⟩ := hs
    exact h
  | deregisterTool =>
    simp only [apply, Option.ite_none_left_eq_some, Option.some.injEq] at hs
    obtain ⟨-, rfl⟩ := hs
    exact h
  | heartbeat | deregisterAgent | flip | sendMessage | updateStatus | cancel | addArtifact
  | failTasks | reorderAgents | reorderConversations | reorderTools | reorderTasks =>
    cases hs
    exact h

end AppState

end Trumpet
