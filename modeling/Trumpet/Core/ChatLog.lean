import Trumpet.Core.Chat
import Trumpet.Lib.Rewind

/-! Conversations over runs of any length: who wrote what where, and what a restore
takes back. -/

namespace Trumpet

/-- The operations on a chat manager; `reorder` picks the iteration order of the
conversations. -/
inductive ChatOp where
  | create (id : ConversationId) (now : DateTime) (name : Option String)
      (participants : List AgentId)
  | send (id : MessageId) (now : DateTime) (conversationId : ConversationId) (sender : AgentId)
      (content : String)
  | reorder (ids : List ConversationId)

/-- A chat manager and the messages sent successfully on the way to it, in order. -/
structure ChatLog where
  chat : ChatManager
  sent : List ChatMessage

namespace ChatLog

def new : ChatLog := ⟨.new, []⟩

/-- A conversation is created under an unused id. -/
def next (s : ChatLog) : ChatOp → Option ChatLog
  | .create id now name participants =>
    if s.chat.getConversation id = none then
      some ⟨(s.chat.createConversation id now name participants).2, s.sent⟩
    else none
  | .send id now conversationId sender content =>
    let r := s.chat.sendMessage id now conversationId sender content
    some ⟨r.2, s.sent ++ r.1.toOption.toList⟩
  | .reorder ids => some ⟨s.chat.reorder ids, s.sent⟩

/-- Restoring the snapshot of `src`. -/
def load (now src : ChatLog) : ChatLog :=
  ⟨now.chat.restore src.chat.listConversations src.chat.histories, src.sent⟩

/-- What holds of conversations and messages in every state. -/
structure Sound (s : ChatLog) : Prop where
  keys : s.chat.Valid
  inhabited : ∀ id conv, s.chat.getConversation id = some conv → conv.participants.items ≠ []
  history : ∀ id msgs, s.chat.messages.find id = some msgs →
    msgs = s.sent.filter fun m => m.conversationId = id
  senders : ∀ m ∈ s.sent, ∃ conv, s.chat.getConversation m.conversationId = some conv ∧
    conv.participants.contains m.sender = true

/-- `t` has the conversations of `s`, and what was sent before was sent first. -/
structure Extends (s t : ChatLog) : Prop where
  conversations : ∀ id conv, s.chat.getConversation id = some conv →
    t.chat.getConversation id = some conv
  sent : s.sent <+: t.sent

theorem Extends.trans (a b c : ChatLog) (h : Extends a b) (h' : Extends b c) : Extends a c :=
  ⟨fun id conv hg => h'.conversations id conv (h.conversations id conv hg), h.sent.trans h'.sent⟩

theorem new_sound : Sound new :=
  ⟨ChatManager.new_valid, fun _ _ h => by (cases h), fun _ _ h => by (cases h),
    fun _ h => by (cases h)⟩

theorem create_next {s t : ChatLog} (h : Sound s) {id : ConversationId} {now : DateTime}
    {name : Option String} {participants : List AgentId}
    (hs : s.next (.create id now name participants) = some t) : Sound t ∧ Extends s t := by
  simp only [next, Option.ite_none_right_eq_some, Option.some.injEq] at hs
  obtain ⟨fresh, rfl⟩ := hs
  have hvalid := ChatManager.createConversation_valid h.keys id now name participants
  rcases ChatManager.createConversation_cases s.chat id now name participants with
    ⟨e, he⟩ | ⟨hne, he⟩
  · rw [he]
    exact ⟨h, fun _ _ hg => hg, List.prefix_rfl⟩
  · rw [he] at hvalid ⊢
    have keep : ∀ k conv, s.chat.getConversation k = some conv →
        (s.chat.conversations.insert ⟨id, name, .ofList participants, now⟩).get k =
          some conv := by
      intro k conv hg
      have hk : k ≠ id := by
        rintro rfl
        rw [fresh] at hg
        cases hg
      rw [KeyedMap.get_insert, if_neg hk]
      exact hg
    refine ⟨⟨hvalid, ?_, ?_, ?_⟩, keep, List.prefix_rfl⟩
    · intro k conv hg
      rw [ChatManager.getConversation, KeyedMap.get_insert] at hg
      split at hg
      · cases hg
        obtain ⟨a, ha⟩ := List.exists_mem_of_ne_nil participants hne
        exact List.ne_nil_of_mem ((HashSet.mem_ofList participants a).mpr ha)
      · exact h.inhabited k conv hg
    · intro k msgs hf
      rw [HashTable.find_put] at hf
      split at hf
      · rename_i hk
        cases hf
        symm
        rw [List.filter_eq_nil_iff]
        intro m hm hc
        obtain ⟨conv, hg, _⟩ := h.senders m hm
        rw [of_decide_eq_true hc, hk, fresh] at hg
        cases hg
      · exact h.history k msgs hf
    · intro m hm
      obtain ⟨conv, hg, hp⟩ := h.senders m hm
      exact ⟨conv, keep _ conv hg, hp⟩

theorem send_next {s t : ChatLog} (h : Sound s) {id : MessageId} {now : DateTime}
    {conversationId : ConversationId} {sender : AgentId} {content : String}
    (hs : s.next (.send id now conversationId sender content) = some t) :
    Sound t ∧ Extends s t := by
  cases hs
  have hvalid := ChatManager.sendMessage_valid h.keys id now conversationId sender content
  rcases ChatManager.sendMessage_cases s.chat id now conversationId sender content with
    ⟨e, he⟩ | ⟨conv, hg, hp, he⟩
  · rw [he]
    have hsent : s.sent ++ (Except.error e : Except Error ChatMessage).toOption.toList = s.sent :=
      List.append_nil _
    rw [hsent]
    exact ⟨h, fun _ _ hg => hg, List.prefix_rfl⟩
  · rw [he] at hvalid ⊢
    refine ⟨⟨hvalid, h.inhabited, ?_, ?_⟩, fun _ _ hg => hg, List.prefix_append _ _⟩
    · intro k msgs hf
      simp only [Except.toOption, Option.toList_some, List.filter_append]
      rw [HashTable.find_alter] at hf
      split at hf
      · rename_i hk
        cases hf
        have hsome : (s.chat.messages.find conversationId).isSome = true := by
          rw [h.keys, hg]
          rfl
        obtain ⟨old, hold⟩ := Option.isSome_iff_exists.mp hsome
        rw [hold, Option.getD_some, h.history conversationId old hold, hk]
        simp
      · rename_i hk
        rw [h.history k msgs hf]
        simp [Ne.symm hk]
    · intro m hm
      rcases List.mem_append.mp hm with hm | hm
      · exact h.senders m hm
      · obtain rfl : m = ⟨id, conversationId, sender, content, now⟩ := by
          simpa [Except.toOption] using hm
        exact ⟨conv, hg, hp⟩

theorem reorder_next {s t : ChatLog} (h : Sound s) {ids : List ConversationId}
    (hs : s.next (.reorder ids) = some t) : Sound t ∧ Extends s t := by
  cases hs
  have hget : ∀ k, (s.chat.reorder ids).getConversation k = s.chat.getConversation k :=
    KeyedMap.get_reorder _ _
  refine ⟨⟨ChatManager.reorder_valid h.keys ids, ?_, h.history, ?_⟩, ?_, List.prefix_rfl⟩
  · intro k conv hg
    exact h.inhabited k conv ((hget k).symm.trans hg)
  · intro m hm
    obtain ⟨conv, hg, hp⟩ := h.senders m hm
    exact ⟨conv, (hget _).trans hg, hp⟩
  · exact fun k conv hg => (hget k).trans hg

theorem next_sound {s t : ChatLog} {op : ChatOp} (h : Sound s) (hs : s.next op = some t) :
    Sound t ∧ Extends s t := by
  cases op with
  | create id now name participants => exact create_next h hs
  | send id now conversationId sender content => exact send_next h hs
  | reorder ids => exact reorder_next h hs

/-- A restore brings back the conversations and histories of the state its snapshot
was taken of. -/
theorem load_sound {src : ChatLog} (h : Sound src) (now : ChatLog) :
    Sound (load now src) ∧ Extends src (load now src) := by
  obtain ⟨hc, hm⟩ := ChatManager.restore_list h.keys (.refl _) now.chat
  refine ⟨⟨ChatManager.restore_valid h.keys (.refl _) now.chat, ?_, ?_, ?_⟩,
    fun id conv hg => (hc id).trans hg, List.prefix_rfl⟩
  · intro id conv hg
    exact h.inhabited id conv ((hc id).symm.trans hg)
  · intro id msgs hf
    exact h.history id msgs ((hm id).symm.trans hf)
  · intro m hmem
    obtain ⟨conv, hg, hp⟩ := h.senders m hmem
    exact ⟨conv, (hc _).trans hg, hp⟩

/-- Every stored message is filed under its conversation and was written by one of
its participants. -/
def Filed (c : ChatManager) : Prop :=
  ∀ id msgs, c.messages.find id = some msgs → ∀ m ∈ msgs, m.conversationId = id ∧
    ∃ conv, c.getConversation id = some conv ∧ conv.participants.contains m.sender = true

/-- Every history of `a` is the beginning of one of `b`. -/
def Appends (a b : ChatManager) : Prop :=
  ∀ id msgs, a.messages.find id = some msgs → ∃ more, b.messages.find id = some (msgs ++ more)

theorem Sound.filed {s : ChatLog} (h : Sound s) : Filed s.chat := by
  intro id msgs hf m hm
  rw [h.history id msgs hf, List.mem_filter] at hm
  have hid : m.conversationId = id := of_decide_eq_true hm.2
  obtain ⟨conv, hg, hp⟩ := h.senders m hm.1
  exact ⟨hid, conv, hid ▸ hg, hp⟩

theorem Extends.appends {s t : ChatLog} (h : Extends s t) (hs : Sound s) (ht : Sound t) :
    Appends s.chat t.chat := by
  intro id msgs hf
  have hconv : (s.chat.getConversation id).isSome = true := by
    rw [← hs.keys, hf]
    rfl
  obtain ⟨conv, hg⟩ := Option.isSome_iff_exists.mp hconv
  have hmsgs : (t.chat.messages.find id).isSome = true := by
    rw [ht.keys, h.conversations id conv hg]
    rfl
  obtain ⟨msgs', hf'⟩ := Option.isSome_iff_exists.mp hmsgs
  obtain ⟨more, hmore⟩ := h.sent
  refine ⟨more.filter fun m => m.conversationId = id, ?_⟩
  rw [hf', hs.history id msgs hf, ht.history id msgs' hf', ← hmore, List.filter_append]

abbrev step := Rewind.step next load

/-- In every run with restores: histories and conversations have the same ids,
every conversation has a participant, every message is filed under its conversation
and comes from a participant; along the line of states that leads to the current
one, histories only grow, by appending, and each is the list of the messages sent to
it; and a call that fails changes nothing and publishes nothing. -/
theorem conversation_integrity {ls : List (Rewind.Label ChatOp)} {r : Rewind.Run ChatLog}
    (h : Transition.exec step (Rewind.start new) ls = some r) :
    let s := r.current.now
    s.chat.Valid ∧
    (∀ id conv, s.chat.getConversation id = some conv → conv.participants.items ≠ []) ∧
    Filed s.chat ∧
    r.current.states.Pairwise (fun a b => Appends a.chat b.chat) ∧
    (∀ id msgs, s.chat.messages.find id = some msgs →
      msgs = s.sent.filter fun m => m.conversationId = id) ∧
    (∀ id now name participants e,
      (s.chat.createConversation id now name participants).1 = .error e →
        (s.chat.createConversation id now name participants).2 = s.chat) ∧
    ∀ id now conversationId sender content e,
      (s.chat.sendMessage id now conversationId sender content).1 = .error e →
        (s.chat.sendMessage id now conversationId sender content).2 = s.chat := by
  have hline := Rewind.ordered Extends.trans new_sound (fun _ _ _ => next_sound)
    (fun _ now hs => load_sound hs now) h r.current (by simp [Rewind.Run.visited])
  have hs : Sound r.current.now := hline.each _ r.current.now_mem
  refine ⟨hs.keys, hs.inhabited, hs.filed, ?_, hs.history, ?_, ?_⟩
  · exact hline.related.imp_of_mem fun ha hb hab => hab.appends (hline.each _ ha) (hline.each _ hb)
  · exact fun _ _ _ _ _ he => ChatManager.createConversation_error he
  · exact fun _ _ _ _ _ _ he => ChatManager.sendMessage_error he

/-! ### A restore takes back -/

def sampleConversation : ConversationId := ⟨.ofOctet 1⟩

/-- A conversation is created and a message sent; then the snapshot taken before the
message is restored. -/
def forgetting : List (Rewind.Label ChatOp) :=
  [.op (.create sampleConversation 0 none [⟨.ofOctet 2⟩]),
    .op (.send ⟨.ofOctet 3⟩ 1 sampleConversation ⟨.ofOctet 2⟩ "hello"), .reload 1]

theorem conversation_integrity_forgetting :
    ∃ r, Transition.exec step (Rewind.start new) forgetting = some r ∧
      r.current.now.chat.Valid ∧ Filed r.current.now.chat := by
  have h := @conversation_integrity forgetting _ rfl
  exact ⟨_, rfl, h.1, h.2.2.1⟩

/-- In the order of the run itself a history gets shorter. -/
theorem restore_forgets :
    ¬ ∀ ls r, Transition.exec step (Rewind.start new) ls = some r →
      (r.visited.map fun b => b.now.chat).Pairwise Appends := by
  intro h
  obtain ⟨_, hrest⟩ := List.pairwise_cons.mp (h forgetting _ rfl)
  obtain ⟨_, hrest⟩ := List.pairwise_cons.mp hrest
  obtain ⟨hlast, _⟩ := List.pairwise_cons.mp hrest
  obtain ⟨more, hmore⟩ := hlast _ List.mem_cons_self sampleConversation _ rfl
  cases hmore

end ChatLog

end Trumpet
