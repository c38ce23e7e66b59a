import Trumpet.Core.Bus
import Trumpet.Core.Error
import Trumpet.Lib.KeyedMap

/-! Conversations and their message histories, kept apart. -/

namespace Trumpet

structure ChatManager where
  conversations : KeyedMap Conversation.id
  messages : HashTable ConversationId (List ChatMessage)
  bus : MessageBus

namespace ChatManager

def new : ChatManager := ⟨.empty, .empty, .new⟩

def createConversation (self : ChatManager) (id : ConversationId) (now : DateTime)
    (name : Option String) (participants : List AgentId) :
    Except Error Conversation × ChatManager :=
  if participants.isEmpty then (.error .conversationEmptyParticipants, self)
  else
    let conv : Conversation := ⟨id, name, .ofList participants, now⟩
    (.ok conv, { self with
      conversations := self.conversations.insert conv
      messages := self.messages.put conv.id [] })

def sendMessage (self : ChatManager) (id : MessageId) (now : DateTime)
    (conversationId : ConversationId) (sender : AgentId) (content : String) :
    Except Error ChatMessage × ChatManager :=
  match self.conversations.get conversationId with
  | none => (.error (.conversationNotFound conversationId.toString), self)
  | some conv =>
    if !conv.participants.contains sender then
      (.error (.conversationNotParticipant sender.toString conversationId.toString), self)
    else
      let msg : ChatMessage := ⟨id, conversationId, sender, content, now⟩
      (.ok msg, { self with
        messages := self.messages.alter conversationId [] (· ++ [msg])
        bus := self.bus.publish (.newMessage msg) })

def getConversation (self : ChatManager) (id : ConversationId) : Option Conversation :=
  self.conversations.get id

def getMessages (self : ChatManager) (conversationId : ConversationId) :
    Except Error (List ChatMessage) :=
  match self.messages.find conversationId with
  | some msgs => .ok msgs
  | none => .error (.conversationNotFound conversationId.toString)

def listConversations (self : ChatManager) : List Conversation := self.conversations.values

def conversationsForAgent (self : ChatManager) (agentId : AgentId) : List Conversation :=
  self.conversations.values.filter fun conv => conv.participants.contains agentId

def restore (self : ChatManager) (conversations : List Conversation)
    (messages : List (ConversationId × List ChatMessage)) : ChatManager :=
  { self with
    conversations := KeyedMap.empty.insertAll conversations
    messages := KeyedMap.empty.insertAll messages }

/-- Iterate the conversations in another order. -/
def reorder (self : ChatManager) (ids : List ConversationId) : ChatManager :=
  { self with conversations := self.conversations.reorder ids }

/-! ## What each operation does -/

theorem createConversation_cases (c : ChatManager) (id : ConversationId) (now : DateTime)
    (name : Option String) (participants : List AgentId) :
    (∃ e, c.createConversation id now name participants = (.error e, c)) ∨
    participants ≠ [] ∧ c.createConversation id now name participants =
      (.ok ⟨id, name, .ofList participants, now⟩, { c with
        conversations := c.conversations.insert ⟨id, name, .ofList participants, now⟩
        messages := c.messages.put id [] }) := by
  unfold createConversation
  split
  · exact .inl ⟨_, rfl⟩
  · rename_i h
    exact .inr ⟨fun e => h (by rw [e]; rfl), rfl⟩

theorem sendMessage_cases (c : ChatManager) (id : MessageId) (now : DateTime)
    (conversationId : ConversationId) (sender : AgentId) (content : String) :
    (∃ e, c.sendMessage id now conversationId sender content = (.error e, c)) ∨
    ∃ conv, c.getConversation conversationId = some conv ∧
      conv.participants.contains sender = true ∧
      c.sendMessage id now conversationId sender content =
        (.ok ⟨id, conversationId, sender, content, now⟩, { c with
          messages := c.messages.alter conversationId []
            (· ++ [⟨id, conversationId, sender, content, now⟩])
          bus := c.bus.publish (.newMessage ⟨id, conversationId, sender, content, now⟩) }) := by
  unfold sendMessage getConversation
  cases hg : c.conversations.get conversationId with
  | none => exact .inl ⟨_, rfl⟩
  | some conv =>
    simp only
    split
    · exact .inl ⟨_, rfl⟩
    · rename_i h
      exact .inr ⟨conv, rfl, by simpa using h, rfl⟩

/-- A conversation that cannot be created, or a message that cannot be sent,
leaves everything as it was. -/
theorem createConversation_error {c : ChatManager} {id : ConversationId} {now : DateTime}
    {name : Option String} {participants : List AgentId} {e : Error}
    (h : (c.createConversation id now name participants).1 = .error e) :
    (c.createConversation id now name participants).2 = c := by
  rcases createConversation_cases c id now name participants with ⟨_, he⟩ | ⟨_, he⟩
  · rw [he]
  · rw [he] at h; cases h

theorem sendMessage_error {c : ChatManager} {id : MessageId} {now : DateTime}
    {conversationId : ConversationId} {sender : AgentId} {content : String} {e : Error}
    (h : (c.sendMessage id now conversationId sender content).1 = .error e) :
    (c.sendMessage id now conversationId sender content).2 = c := by
  rcases sendMessage_cases c id now conversationId sender content with ⟨_, he⟩ | ⟨_, _, _, he⟩
  · rw [he]
  · rw [he] at h; cases h

/-! ## The manager invariant -/

/-- Exactly the known conversations have a history. -/
def Valid (c : ChatManager) : Prop :=
  ∀ id, (c.messages.find id).isSome = (c.getConversation id).isSome

theorem new_valid : Valid new := fun _ => rfl

theorem createConversation_valid {c : ChatManager} (h : Valid c) (id : ConversationId)
    (now : DateTime) (name : Option String) (participants : List AgentId) :
    Valid (c.createConversation id now name participants).2 := by
  unfold createConversation
  split
  · exact h
  · intro j
    simp only [getConversation, HashTable.find_put, KeyedMap.get_insert]
    by_cases hj : j = id
    · simp only [hj, if_true, Option.isSome_some]
    · simpa only [hj, if_false, getConversation] using h j

theorem sendMessage_valid {c : ChatManager} (h : Valid c) (id : MessageId) (now : DateTime)
    (conversationId : ConversationId) (sender : AgentId) (content : String) :
    Valid (c.sendMessage id now conversationId sender content).2 := by
  unfold sendMessage
  cases hg : c.conversations.get conversationId with
  | none => exact h
  | some conv =>
    simp only
    split
    · exact h
    · intro j
      simp only [HashTable.find_alter, getConversation]
      by_cases hj : j = conversationId
      · simp only [hj, if_true, hg, Option.isSome_some]
      · simpa only [hj, if_false, getConversation] using h j

theorem reorder_valid {c : ChatManager} (h : Valid c) (ids : List ConversationId) :
    Valid (c.reorder ids) := by
  intro j
  have := h j
  simpa [reorder, getConversation] using this

/-! ## Flattening and restoring -/

/-- The histories as a snapshot lists them: one entry for each conversation. -/
def histories (c : ChatManager) : List (ConversationId × List ChatMessage) :=
  c.listConversations.filterMap fun conv =>
    match c.getMessages conv.id with
    | .ok msgs => some (conv.id, msgs)
    | .error _ => none

theorem mem_histories {c : ChatManager} (h : Valid c) {id : ConversationId}
    {msgs : List ChatMessage} : (id, msgs) ∈ c.histories ↔ c.messages.find id = some msgs := by
  simp only [histories, List.mem_filterMap, getMessages]
  constructor
  · rintro ⟨conv, _, hm⟩
    cases hf : c.messages.find conv.id with
    | none => rw [hf] at hm; cases hm
    | some ms => rw [hf] at hm; cases hm; exact hf
  · intro hf
    have hs := h id
    rw [hf, Option.isSome_some] at hs
    obtain ⟨conv, hc⟩ := Option.isSome_iff_exists.mp hs.symm
    obtain ⟨hmem, rfl⟩ := KeyedMap.get_eq_some.mp hc
    exact ⟨conv, hmem, by rw [hf]⟩

theorem histories_keys (c : ChatManager) : (c.histories.map Prod.fst).Nodup := by
  refine List.Nodup.sublist ?_ c.conversations.nodup
  rw [histories, listConversations]
  induction c.conversations.values with
  | nil => exact List.Sublist.slnil
  | cons conv convs ih =>
    rw [List.filterMap_cons]
    cases hm : c.getMessages conv.id with
    | error e => exact ih.cons _
    | ok msgs => exact ih.cons_cons _

/-- Restoring what a valid manager lists, in any order, gives back its lookups. -/
theorem restore_list {src : ChatManager} (h : Valid src) {convs : List Conversation}
    (hp : convs.Perm src.listConversations) (c : ChatManager) :
    (∀ id, (c.restore convs src.histories).getConversation id = src.getConversation id) ∧
      ∀ id, (c.restore convs src.histories).messages.find id = src.messages.find id := by
  refine ⟨KeyedMap.get_insertAll_perm src.conversations hp, fun id => ?_⟩
  have hmem : ∀ msgs, (id, msgs) ∈ src.histories ↔ src.messages.find id = some msgs :=
    fun _ => mem_histories h
  cases hf : src.messages.find id with
  | none =>
    have hn : ∀ e ∈ src.histories, e.1 ≠ id := by
      rintro ⟨j, msgs⟩ he rfl
      rw [hf] at hmem
      cases (hmem msgs).mp he
    simp only [restore, HashTable.find]
    rw [KeyedMap.get_insertAll_of_notMem _ _ _ hn]
    rfl
  | some msgs =>
    have he := (hmem msgs).mpr hf
    simp only [restore, HashTable.find]
    rw [@KeyedMap.get_insertAll_of_mem _ _ Prod.fst _ _ _ (histories_keys src) _ he]
    rfl

theorem restore_valid {src : ChatManager} (h : Valid src) {convs : List Conversation}
    (hp : convs.Perm src.listConversations) (c : ChatManager) :
    Valid (c.restore convs src.histories) := by
  obtain ⟨hc, hm⟩ := restore_list h hp c
  intro id
  rw [hc, hm]
  exact h id

end ChatManager

end Trumpet
